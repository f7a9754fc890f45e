import Courier.Text.Blank
import Courier.Text.Lowercase
import Courier.Text.Search

namespace Courier.Recovery

open Courier.Text

def mentions (text : List Char) (words : List String) : Bool :=
  words.any fun word => contains word.toList text

def category (message : Option String) : String :=
  match message.filter fun m => !isBlankText m with
  | none => "unknown"
  | some m =>
    let text := lower m.toList
    if mentions text ["smtp", "mail server"] then "smtp_error"
    else if mentions text ["invalid"] && mentions text ["email"] then "invalid_email"
    else if mentions text ["timeout", "timed out"] then "timeout"
    else if mentions text ["connection", "network"] then "connection_error"
    else if mentions text ["authentication", "auth"] then "authentication_error"
    else if mentions text ["rate limit", "throttle"] then "rate_limit"
    else "other"

end Courier.Recovery
