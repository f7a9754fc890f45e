import Courier.Crypto.Sha256

namespace Courier.Hmac

/-- The key as one block: hashed if it is longer, and filled with zeros. -/
def blockKey (key : List UInt8) : List UInt8 :=
  let key := if 64 < key.length then Sha256.digest key else key
  key ++ List.replicate (64 - key.length) 0

def sign (key message : List UInt8) : List UInt8 :=
  let key := blockKey key
  let inner := Sha256.digest (key.map (· ^^^ 0x36) ++ message)
  Sha256.digest (key.map (· ^^^ 0x5c) ++ inner)

end Courier.Hmac
