import ConstructVeil.Conn.Impl.Relay
import ConstructVeil.Relay.Impl.ConfigLink

/-!
This module contains what comes before the first connection: `make-config-link`, which issues a
capability and the link that brings it to a client, the key pair of a relay in a chain, and the
start of a relay from its flags.
-/

namespace Veil

/--
The text encoders of the tools: standard base64, base64 for URLs, and JSON.
-/
structure TextEncoders where
  base64 : Bytes → String
  base64Url : Bytes → String
  json : JsonWriter

abbrev Files := String → Except String String

section Issuer

structure MakeConfigLinkArgs extends ConfigLinkArgs where
  signingKeyFile : Option String
  signingKey : Option String
  days : UInt64
  suiteId : UInt8
  scope : String

/--
What the tool gets from the machine it runs on: files, the variable `VEIL_SIGNING_KEY`, random bytes
and the clock.
-/
structure IssuerHost where
  files : Files
  signingKeyVar : Option String
  ticketId : ByteArr ticketIdLen
  keyBytes : ByteArr authKeyLen
  unixNow : Except String UInt64

inductive LinkError where
  | message (msg : String)
  | panic (msg : String)
  | fault (f : Fault)
  deriving DecidableEq, Repr

structure ConfigLink where
  pubHex : String
  exp : UInt64
  capB64 : String
  link : String

def resolveSigningKey (host : IssuerHost) (file argv : Option String) : Except String String :=
  match file with
  | some path =>
    ((host.files path).map Str.trim).mapError fun e => s!"reading --signing-key-file: {e}"
  | none =>
    match host.signingKeyVar.filter fun key => Str.trim key != "" with
    | some key => .ok (Str.trim key)
    | none =>
      match argv with
      | some key => .ok (Str.trim key)
      | none => .error "no signing key: pass --signing-key-file PATH or set VEIL_SIGNING_KEY"

def parseSeed (signingKey : String) : Except LinkError (ByteArr 32) :=
  match hexDecode signingKey with
  | .error f => .error (.fault f)
  | .ok none => .error (.message "signing key must be hex")
  | .ok (some seed) =>
    if h:seed.length = 32 then
      .ok ⟨seed, h⟩
    else
      .error (.message s!"--signing-key must be 32 bytes (64 hex chars), got {seed.length}")

/--
The fields of the link: the signed ones, and the signature in its place in the order of the keys.
-/
def linkFields (args : ConfigLinkArgs) (capB64 : String) (exp : UInt64) (signature : String)
    : List (String × JsonValue) :=
  [("capability", .string capB64),
   ("exp", .number exp.toInt64.toInt),
   ("relay", .string args.relay),
   ("signature", .string signature),
   ("sni", .string (args.sni.getD (hostPart args.relay))),
   ("spki", .string args.spki)]

/--
The end of the validity window wraps around, as the sum of the source does.
-/
def makeConfigLink (crypto : Crypto) (enc : TextEncoders) (host : IssuerHost)
    (args : MakeConfigLinkArgs) : Except LinkError ConfigLink := do
  let signingKey ← (resolveSigningKey host args.signingKeyFile args.signingKey).mapError .message
  let seed ← parseSeed signingKey
  let pubHex := hexEncode (crypto.publicKey seed).val
  let now ← host.unixNow.mapError .message
  let exp := now + args.days * 24 * 60 * 60
  let ticket : Ticket := ⟨host.ticketId, host.keyBytes, now, exp, args.suiteId⟩
  let capability ← (Capability.sign crypto ticket args.scope seed).mapError
    fun e => .message e.message
  let encoded ← capability.encode.mapError .panic
  let capB64 := enc.base64 encoded
  let canonical ← (canonicalConfig enc.json args.toConfigLinkArgs capB64 exp).mapError .message
  let sig := crypto.sign seed (asBytes canonical)
  let signature := "ed25519:" ++ enc.base64Url sig.val
  let full ← (enc.json (linkFields args.toConfigLinkArgs capB64 exp signature)).mapError .message
  let d := enc.base64Url (asBytes full)
  return ⟨pubHex, exp, capB64, "konstruct://veil-config?d=" ++ d⟩

end Issuer

section Relay

/--
The key pair of `--generate-relay-keypair`: the public key is printed and the seed goes to a new
file.
-/
structure RelayKeypair where
  veilPk : String
  veilSk : String

def generateRelayKeypair (crypto : Crypto) (seed : ByteArr 32) : RelayKeypair :=
  ⟨hexEncode (crypto.publicKey seed).val, hexEncode seed.val⟩

structure RelayArgs where
  listen : String
  dev : Bool
  cert : Option String
  key : Option String
  issuerPubkey : Option String
  relayScope : String
  backend : String
  backendTls : Bool
  backendSni : Option String
  firstByteTimeoutSecs : UInt64
  dialTimeoutSecs : UInt64
  chainUpstreamAddr : Option String
  chainUpstreamSni : Option String
  chainUpstreamSpki : Option String
  chainCapabilityFile : Option String
  chainVeilSkFile : Option String

/--
What the start of a relay needs from its machine and its libraries, with the texts of the errors.
-/
structure RelayHost where
  crypto : Crypto
  texts : TextCodecs
  target : Target
  files : Files
  selfSigned : Except String Unit
  fromPemFiles : (certPath keyPath : String) → Except String Unit
  serverName : String → Except String Unit
  bind : String → Except String Unit

variable (host : RelayHost) (args : RelayArgs)

def readChainConfig (capFile skFile : String) : Except String ChainConfig := do
  let capabilityV2B64 ← ((host.files capFile).map Str.trim).mapError
    fun e => s!"reading --chain-capability-file: {e}"
  let skHex ← ((host.files skFile).map Str.trim).mapError
    fun e => s!"reading --chain-veil-sk-file: {e}"
  let skBytes ← (host.texts.hexDecode skHex).mapError fun e => s!"veil_sk hex: {e}"
  if h:skBytes.length = 32 then
    return ⟨capabilityV2B64, ⟨skBytes, h⟩⟩
  else
    .error "veil_sk must be 32 bytes"

def chainConfig : Except String (Option ChainConfig) :=
  match args.chainUpstreamAddr, args.chainUpstreamSni, args.chainUpstreamSpki,
      args.chainCapabilityFile, args.chainVeilSkFile with
  | some _, some _, some _, some capFile, some skFile =>
    (readChainConfig host capFile skFile).map some
  | none, none, none, none, none => .ok none
  | _, _, _, _, _ =>
    .error ("chain relay mode requires ALL of --chain-upstream-addr, --chain-upstream-sni, " ++
      "--chain-upstream-spki, --chain-capability-file, --chain-veil-sk-file")

def relayTls : Except String Unit :=
  if args.dev then
    host.selfSigned
  else
    match args.cert, args.key with
    | none, _ => .error "Production mode requires --cert"
    | some _, none => .error "Production mode requires --key"
    | some certPath, some keyPath => host.fromPemFiles certPath keyPath

def parseIssuerPubkey : Except String (ByteArr 32) :=
  match args.issuerPubkey with
  | none => .error "--issuer-pubkey is required (home-server Ed25519 public key, 64 hex chars)"
  | some hexKey => do
    let bytes ← (host.texts.hexDecode (Str.trim hexKey)).mapError
      fun e => s!"invalid --issuer-pubkey hex: {e}"
    if h:bytes.length = 32 then
      return ⟨bytes, h⟩
    else
      .error s!"--issuer-pubkey must be 32 bytes (64 hex chars), got {bytes.length}"

def backendDialer : Except String Unit :=
  if args.backendTls then
    let sni := args.backendSni.getD (hostPart args.backend)
    (host.serverName sni).mapError fun e => s!"invalid backend SNI '{sni}': {e}"
  else
    .ok ()

/--
The start of a relay, up to the accept loop. A timeout of zero seconds is one second.
-/
def startRelay : Except String RelayConfig := do
  let chain ← chainConfig host args
  relayTls host args
  let issuerPubkey ← parseIssuerPubkey host args
  backendDialer host args
  (host.bind args.listen).mapError fun e => s!"Failed to bind {args.listen}: {e}"
  return {
    crypto := host.crypto
    texts := host.texts
    target := host.target
    issuerPubkey
    relayScope := args.relayScope
    chain
    firstByte := fromSecs (max args.firstByteTimeoutSecs.toNat 1)
    dial := fromSecs (max args.dialTimeoutSecs.toNat 1) }

end Relay

end Veil
