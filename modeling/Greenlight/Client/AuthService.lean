import Greenlight.Lib.Word

/-!
# Signing calls

`AuthService::call` of `node/service.rs`: a client signs the body of a call and the time of the call, not the URI.
-/

namespace Greenlight

open Greenlight.Lib

/-- A call with the headers `glauthpubkey`, `glauthsig`, `glts` and `glrune`, before their base64 form. -/
structure ClientCall where
  uri : String
  body : Bytes
  pubkey : Bytes
  signature : Bytes
  timestamp : UInt64
  rune : String
  deriving DecidableEq, Repr

/-- The payload and the associated data that the signature covers. -/
def ClientCall.signedData (c : ClientCall) : Bytes := c.body ++ beBytes c.timestamp

/-- The key pair and the rune of a client. -/
structure AuthService where
  pubkey : Bytes
  sign : Bytes → Bytes
  rune : String

/-- `call`, at a time in milliseconds. -/
def AuthService.call (service : AuthService) (time : UInt64) (uri : String) (data : Bytes) : ClientCall where
  uri := uri
  body := data
  pubkey := service.pubkey
  signature := service.sign (data ++ beBytes time)
  timestamp := time
  rune := service.rune

end Greenlight
