import ConstructVeil.Protocol.Basic

/-!
This module contains the implementation of capabilities, i.e. the access tokens that an issuer signs
and a relay checks offline, and of the AUTH records that bind one to a TLS session. There are two
formats: the bearer capability (AUTH v2) carries a shared key, the key-bound one (AUTH v3) the
public key of its holder.
-/

namespace Veil

/--
The cryptographic primitives: Ed25519 on 32 byte seeds and public keys, and HMAC-SHA256.
-/
structure Crypto where
  -- The public key of a seed
  publicKey : ByteArr 32 → ByteArr 32
  sign : (seed : ByteArr 32) → (msg : Bytes) → ByteArr 64
  -- Whether 32 bytes are the encoding of a public key
  validKey : ByteArr 32 → Bool
  verifyStrict : (pubkey : ByteArr 32) → (msg : Bytes) → (sig : ByteArr 64) → Bool
  hmacSha256 : (key : ByteArr 32) → (msg : Bytes) → ByteArr 32

def Crypto.verify (c : Crypto) (pubkey : ByteArr 32) (msg : Bytes) (sig : ByteArr 64) : Bool :=
  if c.validKey pubkey then
    c.verifyStrict pubkey msg sig
  else
    false

abbrev ticketIdLen : Nat := 16
abbrev authKeyLen : Nat := 32
abbrev veilPkLen : Nat := 32
abbrev authcodeLen : Nat := 32
abbrev capSigLen : Nat := 64
abbrev clientSigLen : Nat := 64
def maxScopeLen : Nat := 255

def roleUser : UInt8 := 0
def roleRelay : UInt8 := 1

def capDomain : Bytes := asBytes "veil-cap-v1"
def capV2Domain : Bytes := asBytes "veil-cap-v2"
def authV3SigDomain : Bytes := asBytes "veil-auth-v1"

inductive CapabilityError where
  | scopeTooLong (len : Nat)
  deriving DecidableEq, Repr

def CapabilityError.message : CapabilityError → String
  | .scopeTooLong len =>
    s!"capability scope is {len} bytes; at most {maxScopeLen} fit the wire format"

/--
An empty scope on either side is a wildcard.
-/
def scopeMatches (capabilityScope relayScope : String) : Bool :=
  capabilityScope == "" || relayScope == "" || capabilityScope == relayScope

def checkScopeLen (scope : String) : Except CapabilityError Unit :=
  if (asBytes scope).length > maxScopeLen then
    .error (.scopeTooLong (asBytes scope).length)
  else
    .ok ()

/--
The signed fields of a capability. The two formats differ in the `k` bytes between the key and the
validity window.
-/
structure CapFields (k : Nat) where
  ticketId : ByteArr ticketIdLen
  key : ByteArr 32
  extra : ByteArr k
  notBefore : UInt64
  notAfter : UInt64
  suiteId : UInt8
  scope : String
  deriving DecidableEq

namespace CapFields

variable {k : Nat}

def signingMessage (domain : Bytes) (f : CapFields k) : Bytes :=
  domain ++ f.ticketId.val ++ f.key.val ++ f.extra.val ++ (u64ToLeBytes f.notBefore).val ++
    (u64ToLeBytes f.notAfter).val ++ [f.suiteId] ++ asBytes f.scope

def fixedLen (k : Nat) : Nat := ticketIdLen + 32 + k + 8 + 8 + 1 + 1

/--
Encode the fields and the signature. A scope that does not fit its length byte is a panic, whose
message is the error.
-/
def encode (f : CapFields k) (sig : ByteArr capSigLen) : Except String Bytes :=
  let scope := asBytes f.scope
  if scope.length ≤ maxScopeLen then
    .ok (f.ticketId.val ++ f.key.val ++ f.extra.val ++ (u64ToLeBytes f.notBefore).val ++
      (u64ToLeBytes f.notAfter).val ++ [f.suiteId] ++ [UInt8.ofNat scope.length] ++ scope ++
        sig.val)
  else
    .error (CapabilityError.scopeTooLong scope.length).message

open ByteArr in
/--
Decode the fields and the signature from the front of `data`, the last component is what remains.
Both length checks come before the reads they guard, so no read is out of bounds.
-/
def decode (k : Nat) (data : Bytes) : Option (CapFields k × ByteArr capSigLen × Bytes) :=
  if hfixed:data.length < fixedLen k then
    none
  else
    have hfixed : 66 + k ≤ data.length := by
      simp only [fixedLen, ticketIdLen] at hfixed
      omega
    let ticketId := slice data 0 16 (by omega)
    let key := slice data 16 32 (by omega)
    let extra := slice data 48 k (by omega)
    let notBefore := u64FromLeBytes (slice data (48 + k) 8 (by omega))
    let notAfter := u64FromLeBytes (slice data (56 + k) 8 (by omega))
    let suiteId := getU8 data (64 + k) (by omega)
    let scopeLen := (getU8 data (65 + k) (by omega)).toNat
    if hvar:data.length - (66 + k) < scopeLen + capSigLen then
      none
    else
      have hvar : 66 + k + scopeLen + 64 ≤ data.length := by
        simp only [capSigLen] at hvar
        omega
      match fromUtf8 (slice data (66 + k) scopeLen (by omega)).val with
      | none => none
      | some scope =>
        let sig := slice data (66 + k + scopeLen) 64 hvar
        some (⟨ticketId, key, extra, notBefore, notAfter, suiteId, scope⟩, sig,
          data.drop (66 + k + scopeLen + 64))

end CapFields

structure Ticket where
  ticketId : ByteArr ticketIdLen
  authKey : ByteArr authKeyLen
  notBefore : UInt64
  notAfter : UInt64
  suiteId : UInt8
  deriving DecidableEq

def Ticket.isValidAt (ticket : Ticket) (nowSecs : UInt64) : Bool :=
  nowSecs ≥ ticket.notBefore && nowSecs ≤ ticket.notAfter

structure AuthRecord where
  ticketId : ByteArr ticketIdLen
  authcode : ByteArr authcodeLen
  deriving DecidableEq

/--
The session binding of a ticket: an HMAC of the TLS exporter under the ticket's key.
-/
def AuthRecord.fromTicket (c : Crypto) (ticket : Ticket) (exporter : ByteArr 32) : AuthRecord :=
  let authcode := c.hmacSha256 ticket.authKey
    (exporter.val ++ ticket.ticketId.val ++ (u64ToLeBytes ticket.notAfter).val)
  ⟨ticket.ticketId, authcode⟩

structure Capability where
  ticket : Ticket
  scope : String
  sig : ByteArr capSigLen
  deriving DecidableEq

namespace Capability

def fields (ticket : Ticket) (scope : String) : CapFields 0 :=
  ⟨ticket.ticketId, ticket.authKey, ⟨[], rfl⟩, ticket.notBefore, ticket.notAfter, ticket.suiteId,
    scope⟩

def ofFields (f : CapFields 0) (sig : ByteArr capSigLen) : Capability :=
  ⟨⟨f.ticketId, f.key, f.notBefore, f.notAfter, f.suiteId⟩, f.scope, sig⟩

def signingMessage (ticket : Ticket) (scope : String) : Bytes :=
  (fields ticket scope).signingMessage capDomain

def sign (c : Crypto) (ticket : Ticket) (scope : String) (issuerSeed : ByteArr 32)
    : Except CapabilityError Capability :=
  match checkScopeLen scope with
  | .error e => .error e
  | .ok () => .ok ⟨ticket, scope, c.sign issuerSeed (signingMessage ticket scope)⟩

def verifySignature (c : Crypto) (cap : Capability) (issuerPubkey : ByteArr 32) : Bool :=
  c.verify issuerPubkey (signingMessage cap.ticket cap.scope) cap.sig

def isValidAt (cap : Capability) (nowSecs : UInt64) : Bool := cap.ticket.isValidAt nowSecs

def encode (cap : Capability) : Except String Bytes := (fields cap.ticket cap.scope).encode cap.sig

def decode (data : Bytes) : Option (Capability × Bytes) :=
  (CapFields.decode 0 data).map fun (f, sig, rest) => (ofFields f sig, rest)

end Capability

structure AuthRecordV2 where
  capability : Capability
  authcode : ByteArr authcodeLen
  deriving DecidableEq

namespace AuthRecordV2

def fromCapability (c : Crypto) (capability : Capability) (exporter : ByteArr 32) : AuthRecordV2 :=
  ⟨capability, (AuthRecord.fromTicket c capability.ticket exporter).authcode⟩

def verify (c : Crypto) (rec : AuthRecordV2) (issuerPubkey : ByteArr 32) (relayScope : String)
    (exporter : ByteArr 32) (nowSecs : UInt64) : Bool :=
  let cap := rec.capability
  if !cap.isValidAt nowSecs || cap.ticket.suiteId != suiteClassicV1 ||
      !scopeMatches cap.scope relayScope then
    false
  else if !cap.verifySignature c issuerPubkey then
    false
  else
    (AuthRecord.fromTicket c rec.capability.ticket exporter).authcode == rec.authcode

def encodePayload (rec : AuthRecordV2) : Except String Bytes :=
  rec.capability.encode.map (· ++ rec.authcode.val)

def decodePayload (payload : Bytes) : Option AuthRecordV2 :=
  match Capability.decode payload with
  | none => none
  | some (capability, buf) =>
    if h:buf.length = authcodeLen then
      some ⟨capability, ⟨buf, h⟩⟩
    else
      none

end AuthRecordV2

/--
A capability that is bound to the public key of its holder.
-/
structure CapabilityV2 where
  ticketId : ByteArr ticketIdLen
  veilPk : ByteArr veilPkLen
  role : UInt8
  notBefore : UInt64
  notAfter : UInt64
  suiteId : UInt8
  scope : String
  sig : ByteArr capSigLen
  deriving DecidableEq

namespace CapabilityV2

def fields (ticketId : ByteArr ticketIdLen) (veilPk : ByteArr veilPkLen) (role : UInt8)
    (notBefore notAfter : UInt64) (suiteId : UInt8) (scope : String) : CapFields 1 :=
  ⟨ticketId, veilPk, ⟨[role], rfl⟩, notBefore, notAfter, suiteId, scope⟩

def ofFields (f : CapFields 1) (sig : ByteArr capSigLen) : CapabilityV2 :=
  ⟨f.ticketId, f.key, ByteArr.getU8 f.extra.val 0 (by simp), f.notBefore, f.notAfter, f.suiteId,
    f.scope, sig⟩

def signingMessage (ticketId : ByteArr ticketIdLen) (veilPk : ByteArr veilPkLen) (role : UInt8)
    (notBefore notAfter : UInt64) (suiteId : UInt8) (scope : String) : Bytes :=
  (fields ticketId veilPk role notBefore notAfter suiteId scope).signingMessage capV2Domain

def sign (c : Crypto) (ticketId : ByteArr ticketIdLen) (veilPk : ByteArr veilPkLen) (role : UInt8)
    (notBefore notAfter : UInt64) (suiteId : UInt8) (scope : String) (issuerSeed : ByteArr 32)
    : Except CapabilityError CapabilityV2 :=
  match checkScopeLen scope with
  | .error e => .error e
  | .ok () =>
    let msg := signingMessage ticketId veilPk role notBefore notAfter suiteId scope
    .ok ⟨ticketId, veilPk, role, notBefore, notAfter, suiteId, scope, c.sign issuerSeed msg⟩

def verifySignature (c : Crypto) (cap : CapabilityV2) (issuerPubkey : ByteArr 32) : Bool :=
  let msg := signingMessage cap.ticketId cap.veilPk cap.role cap.notBefore cap.notAfter cap.suiteId
    cap.scope
  c.verify issuerPubkey msg cap.sig

def isValidAt (cap : CapabilityV2) (nowSecs : UInt64) : Bool :=
  nowSecs ≥ cap.notBefore && nowSecs ≤ cap.notAfter

def encode (cap : CapabilityV2) : Except String Bytes :=
  (fields cap.ticketId cap.veilPk cap.role cap.notBefore cap.notAfter cap.suiteId cap.scope).encode
    cap.sig

def decode (data : Bytes) : Option (CapabilityV2 × Bytes) :=
  (CapFields.decode 1 data).map fun (f, sig, rest) => (ofFields f sig, rest)

end CapabilityV2

/--
AUTH v3: a key-bound capability and the holder's signature over the exporter of this session.
-/
structure AuthRecordV3 where
  capability : CapabilityV2
  clientSig : ByteArr clientSigLen
  deriving DecidableEq

namespace AuthRecordV3

def signingMessage (capability : CapabilityV2) (exporter : ByteArr 32) : Bytes :=
  authV3SigDomain ++ exporter.val ++ capability.ticketId.val ++
    (u64ToLeBytes capability.notAfter).val

def fromCapability (c : Crypto) (capability : CapabilityV2) (veilSk exporter : ByteArr 32)
    : AuthRecordV3 :=
  ⟨capability, c.sign veilSk (signingMessage capability exporter)⟩

def verify (c : Crypto) (rec : AuthRecordV3) (issuerPubkey : ByteArr 32) (relayScope : String)
    (expectedRole : UInt8) (exporter : ByteArr 32) (nowSecs : UInt64) : Bool :=
  let cap := rec.capability
  if cap.role != expectedRole || !cap.isValidAt nowSecs || cap.suiteId != suiteClassicV1 ||
      !scopeMatches cap.scope relayScope then
    false
  else if !cap.verifySignature c issuerPubkey then
    false
  else
    c.verify rec.capability.veilPk (signingMessage rec.capability exporter) rec.clientSig

def encodePayload (rec : AuthRecordV3) : Except String Bytes :=
  rec.capability.encode.map (· ++ rec.clientSig.val)

def decodePayload (payload : Bytes) : Option AuthRecordV3 :=
  match CapabilityV2.decode payload with
  | none => none
  | some (capability, buf) =>
    if h:buf.length = clientSigLen then
      some ⟨capability, ⟨buf, h⟩⟩
    else
      none

end AuthRecordV3

end Veil
