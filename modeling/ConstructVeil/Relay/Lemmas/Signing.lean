import ConstructVeil.Protocol.Lemmas.Capability
import ConstructVeil.Relay.Impl.ConfigLink

/-!
This module contains the separation of the signed messages: a message determines what it is a
message of, and every field that it covers. No domain is the start of another one, so the kind can
be read off the front.
-/

namespace Veil

inductive SignedKind where
  | capability
  | capabilityV2
  | authV3
  | config
  deriving DecidableEq

def SignedKind.domain : SignedKind → Bytes
  | .capability => capDomain
  | .capabilityV2 => capV2Domain
  | .authV3 => authV3SigDomain
  | .config => asBytes "\x7b"

inductive IsMessage : SignedKind → Bytes → Prop where
  | capability (ticket : Ticket) (scope : String)
      : IsMessage .capability (Capability.signingMessage ticket scope)
  | capabilityV2 (ticketId : ByteArr ticketIdLen) (veilPk : ByteArr veilPkLen) (role : UInt8)
      (notBefore notAfter : UInt64) (suiteId : UInt8) (scope : String)
      : IsMessage .capabilityV2
          (CapabilityV2.signingMessage ticketId veilPk role notBefore notAfter suiteId scope)
  | authV3 (capability : CapabilityV2) (exporter : ByteArr 32)
      : IsMessage .authV3 (AuthRecordV3.signingMessage capability exporter)
  -- Any text of a JSON object
  | config (json : Bytes) : IsMessage .config (asBytes "\x7b" ++ json)

theorem IsMessage.ofFields (f : CapFields 1)
    : IsMessage .capabilityV2 (f.signingMessage capV2Domain) := by
  rw [← CapabilityV2.toFields_ofFields f (.fill 64 0)]
  apply IsMessage.capabilityV2

theorem IsMessage.starts {kind : SignedKind} {msg : Bytes} (h : IsMessage kind msg)
    : kind.domain <+: msg := by
  cases h with
  | capability ticket scope =>
    simp only [Capability.signingMessage, CapFields.signingMessage, List.append_assoc]
    exact List.prefix_append capDomain _
  | capabilityV2 =>
    simp only [CapabilityV2.signingMessage, CapFields.signingMessage, List.append_assoc]
    exact List.prefix_append capV2Domain _
  | authV3 =>
    simp only [AuthRecordV3.signingMessage, List.append_assoc]
    exact List.prefix_append authV3SigDomain _
  | config json => exact List.prefix_append _ json

theorem SignedKind.eq_of_domain_starts {kind kind' : SignedKind}
    (h : kind.domain <+: kind'.domain) : kind = kind' := by
  cases kind <;> cases kind' <;> first | rfl | exact absurd h (by decide)

theorem IsMessage.kind_eq {kind kind' : SignedKind} {msg : Bytes} (h : IsMessage kind msg)
    (h' : IsMessage kind' msg) : kind = kind' := by
  -- Of two starts of one message, one is the start of the other
  rcases List.prefix_or_prefix_of_prefix h.starts h'.starts with hstarts | hstarts
  . exact SignedKind.eq_of_domain_starts hstarts
  . exact (SignedKind.eq_of_domain_starts hstarts).symm

theorem Capability.signingMessage_injective {ticket ticket' : Ticket} {scope scope' : String}
    (h : signingMessage ticket scope = signingMessage ticket' scope')
    : ticket = ticket' ∧ scope = scope' := by
  have hfields := CapFields.signingMessage_injective h
  rcases ticket with ⟨_, _, _, _, _⟩
  rcases ticket' with ⟨_, _, _, _, _⟩
  simp only [fields, CapFields.mk.injEq, true_and] at hfields
  simp only [Ticket.mk.injEq, and_assoc]
  exact hfields

theorem AuthRecordV3.signingMessage_injective {cap cap' : CapabilityV2}
    {exporter exporter' : ByteArr 32}
    (h : signingMessage cap exporter = signingMessage cap' exporter')
    : exporter = exporter' ∧ cap.ticketId = cap'.ticketId ∧ cap.notAfter = cap'.notAfter := by
  simp only [signingMessage, List.append_assoc, List.append_cancel_left_eq] at h
  have ⟨hexporter, h⟩ := List.append_inj h (by simp)
  have ⟨hid, hafter⟩ := List.append_inj h (by simp)
  exact ⟨ByteArr.ext hexporter, ByteArr.ext hid, u64ToLeBytes_injective (ByteArr.ext hafter)⟩

/--
What `serde_json` writes for an object starts with a brace.
-/
def JsonWriter.WritesObjects (json : JsonWriter) : Prop :=
  ∀ fields text, json fields = .ok text → asBytes "\x7b" <+: asBytes text

theorem isMessage_canonicalConfig {json : JsonWriter} {args : ConfigLinkArgs} {capB64 : String}
    {exp : UInt64} {text : String} (hjson : json.WritesObjects)
    (h : canonicalConfig json args capB64 exp = .ok text) : IsMessage .config (asBytes text) := by
  rcases hjson _ text h with ⟨rest, hrest⟩
  rw [← hrest]
  exact .config rest

/--
A text of the configuration is the text of one configuration only.
-/
def JsonWriter.Faithful (json : JsonWriter) : Prop :=
  ∀ fields fields' text, json fields = .ok text → json fields' = .ok text → fields = fields'

theorem configFields_inj {args args' : ConfigLinkArgs} {capB64 capB64' : String} {exp exp' : UInt64}
    : configFields args capB64 exp = configFields args' capB64' exp'
        ↔
      capB64 = capB64' ∧ exp = exp' ∧ args.relay = args'.relay ∧
        args.sni.getD (hostPart args.relay) = args'.sni.getD (hostPart args'.relay) ∧
        args.spki = args'.spki := by
  have hexp : exp.toInt64 = exp'.toInt64 ↔ exp = exp' :=
    ⟨fun h => congrArg Int64.toUInt64 h, fun h => congrArg UInt64.toInt64 h⟩
  simp only [configFields, List.cons.injEq, Prod.mk.injEq, JsonValue.string.injEq,
    JsonValue.number.injEq, Int64.toInt_inj, true_and, and_true, hexp]

theorem JsonWriter.Faithful.canonicalConfig_eq_iff {json : JsonWriter} {args args' : ConfigLinkArgs}
    {capB64 capB64' : String} {exp exp' : UInt64} {text : String} (hjson : json.Faithful)
    (h : canonicalConfig json args capB64 exp = .ok text)
    : canonicalConfig json args' capB64' exp' = .ok text
        ↔
      configFields args capB64 exp = configFields args' capB64' exp' := by
  constructor
  . exact hjson _ _ text h
  . intro hfields
    rw [canonicalConfig, ← hfields]
    exact h

/--
No signature can be read as another one: a signed message determines its kind and the fields that it
covers.
-/
theorem signed_messages_separate
    : (∀ ticket ticket' scope scope',
        Capability.signingMessage ticket scope = Capability.signingMessage ticket' scope'
          → ticket = ticket' ∧ scope = scope')
      ∧ (∀ ticketId ticketId' veilPk veilPk' role role' notBefore notBefore' notAfter notAfter'
          suiteId suiteId' scope scope',
          CapabilityV2.signingMessage ticketId veilPk role notBefore notAfter suiteId scope
            = CapabilityV2.signingMessage ticketId' veilPk' role' notBefore' notAfter' suiteId'
              scope'
          → ticketId = ticketId' ∧ veilPk = veilPk' ∧ role = role' ∧ notBefore = notBefore'
              ∧ notAfter = notAfter' ∧ suiteId = suiteId' ∧ scope = scope')
      ∧ (∀ cap cap' exporter exporter',
          AuthRecordV3.signingMessage cap exporter = AuthRecordV3.signingMessage cap' exporter'
          → exporter = exporter' ∧ cap.ticketId = cap'.ticketId ∧ cap.notAfter = cap'.notAfter)
      ∧ (∀ kind kind' msg, IsMessage kind msg → IsMessage kind' msg → kind = kind')
      ∧ (∀ (json : JsonWriter) args capB64 exp text, json.WritesObjects
          → canonicalConfig json args capB64 exp = .ok text →
            IsMessage .config (asBytes text)) := by
  refine ⟨?_, ?_, ?_, ?_, ?_⟩
  . intro ticket ticket' scope scope' h
    exact Capability.signingMessage_injective h
  . intro ticketId ticketId' veilPk veilPk' role role' notBefore notBefore' notAfter notAfter'
      suiteId suiteId' scope scope' h
    have hfields := CapFields.signingMessage_injective h
    simpa [CapabilityV2.fields] using hfields
  . intro cap cap' exporter exporter' h
    exact AuthRecordV3.signingMessage_injective h
  . intro kind kind' msg h h'
    exact h.kind_eq h'
  . intro json args capB64 exp text hjson h
    exact isMessage_canonicalConfig hjson h

end Veil
