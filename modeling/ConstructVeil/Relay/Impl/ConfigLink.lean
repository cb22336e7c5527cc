import ConstructVeil.Util.Str
import ConstructVeil.Protocol.Basic

/-!
This module contains what `make-config-link` signs with the key of the issuer, the configuration of
a client as a JSON object with sorted keys, and the hex in which it reads that key.
-/

namespace Veil

inductive JsonValue where
  | string (s : String)
  | number (n : Int)
  deriving DecidableEq

/--
The host of a `host:port`. It is cut at the last colon.
-/
def hostPart (relay : String) : String :=
  match relay.toList.reverse.dropWhile (· != ':') with
  | [] => relay
  | _ :: host => String.ofList host.reverse

structure ConfigLinkArgs where
  relay : String
  sni : Option String
  spki : String

/--
The fields of the blob in the order of the `BTreeMap`.
-/
def configFields (args : ConfigLinkArgs) (capB64 : String) (exp : UInt64)
    : List (String × JsonValue) :=
  [("capability", .string capB64),
   ("exp", .number exp.toInt64.toInt),
   ("relay", .string args.relay),
   ("sni", .string (args.sni.getD (hostPart args.relay))),
   ("spki", .string args.spki)]

/--
The text of an object with these fields, or of the error: `serde_json::to_string`.
-/
abbrev JsonWriter := List (String × JsonValue) → Except String String

def canonicalConfig (json : JsonWriter) (args : ConfigLinkArgs) (capB64 : String) (exp : UInt64)
    : Except String String :=
  json (configFields args capB64 exp)

/--
The slices of two bytes are taken one by one. A slice that is no number ends the loop, and one that
cuts through a character is a panic.
-/
def hexDecode (s : String) : Checked (Option Bytes) :=
  if Str.len s.toList % 2 ≠ 0 then
    .ok none
  else
    go (Str.len s.toList / 2) s.toList
where
  go : Nat → List Char → Checked (Option Bytes)
    | 0, _ => .ok (some [])
    | n + 1, s =>
      match Str.splitAt 2 s with
      | .error e => .error e
      | .ok (slice, rest) =>
        match Str.u8FromStrRadix16 slice with
        | none => .ok none
        | some b =>
          match go n rest with
          | .error e => .error e
          | .ok bytes => .ok (bytes.map (b :: ·))

def hexEncode (bytes : Bytes) : String := String.join (bytes.map hexByte)

end Veil
