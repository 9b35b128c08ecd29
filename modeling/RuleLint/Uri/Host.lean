import RuleLint.Domain.Basic
import RuleLint.Uri.Address
import RuleLint.Uri.Escape

/-!
# Hosts

The host in a URI is an address or a name. An address of sixteen bytes stands between brackets. On
the web and for files a name is a domain, and if its last label is a number, it is an address of
four bytes. In other URIs a name is whatever has no character with a meaning of its own.
-/

namespace RuleLint.Uri

/-- The domain that a part of a URI stands for, if it is one. -/
def domain? (part : List Char) : Option (List Char) := do
  let labels ← Domain.labels? (← decode? part)
  if !endsInNumber labels || isIpv4 labels then some (['.'].intercalate labels) else none

/-- Whether a character may be in a name that is not a domain. -/
def isNameCharacter (c : Char) : Bool :=
  !"\x00\t\n\r #/:<>?@[\\]^|".toList.contains c

/-- The host that a part of a URI stands for, if it is one. -/
def host? (isDomain : Bool) (part : List Char) : Option (List Char) :=
  match part with
  | '[' :: rest => if rest.getLast? == some ']' && isIpv6 rest.dropLast then some part else none
  | _ =>
    if isDomain then domain? part
    else if part.all isNameCharacter then some part
    else none

end RuleLint.Uri
