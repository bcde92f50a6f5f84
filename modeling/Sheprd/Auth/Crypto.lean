import Sheprd.Auth.Devices
import Sheprd.Lib.Text

namespace Sheprd.Auth

open Sheprd.Lib

abbrev Secret := List UInt8

abbrev Digest := List UInt8

abbrev Signature := List UInt8

structure Crypto where
  sha256 : List UInt8 → Digest
  parseKey : String → Option PublicKey
  keyBytes : PublicKey → List UInt8
  readSignature : String → Option Signature
  verifies : PublicKey → List UInt8 → Signature → Bool

def deviceName (name : String) : Except Error String :=
  let name := Text.trim name
  if 1 ≤ name.toList.length ∧ name.toList.length ≤ 64 ∧ name.toList.any Text.isControl = false then
    .ok name
  else .error .invalidName

def Crypto.key (crypto : Crypto) (encoded : String) : Except Error PublicKey :=
  match crypto.parseKey encoded with
  | some key => .ok key
  | none => .error .invalidKey

end Sheprd.Auth
