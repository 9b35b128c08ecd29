import RuleLint.Uri

/-!
# Normal forms of URIs

There is more than one spelling of a URI, and one of them is its normal form. It has a scheme in
small letters, a host written in one way, neither a port nor a user that says nothing, no dots that
lead through the path, and escapes for whatever cannot stand for itself. What is escaped already
stays as it is, so the normal form does not tell whether two URIs lead to the same thing.

Capital letters beyond ASCII stay as they are in the name of a host.
-/

namespace RuleLint.Uri

/-! ### Addresses -/

/-- The four bytes in the parts of an address. The last number may stand for several. -/
def ipv4Bytes (parts : List (List Char)) : List Nat :=
  match ((withoutRoot parts).map fun part ↦ (addressPart? part).getD 0).reverse with
  | [] => []
  | last :: before =>
    before.reverse ++ (List.range (4 - before.length)).reverse.map fun i ↦ last >>> (8 * i) % 256

/-- The groups of an address of sixteen bytes that are between colons. -/
def groupsIn (text : List Char) : List Nat :=
  if text.isEmpty then [] else
    (splitOnChar ':' text).flatMap fun part ↦
      if isGroup part then [(numberOf? 16 part).getD 0]
      else match ipv4Bytes (splitOnChar '.' part) with
        | [a, b, c, d] => [256 * a + b, 256 * c + d]
        | _ => []

/-- The eight groups of an address of sixteen bytes. -/
def ipv6Groups (text : List Char) : List Nat :=
  match cutAtGap text with
  | (whole, none) => groupsIn whole
  | (before, some after) =>
    let missing := 8 - (groupsIn before).length - (groupsIn after).length
    groupsIn before ++ List.replicate missing 0 ++ groupsIn after

/-- The number of zeros that groups start with. -/
def zeros (groups : List Nat) : Nat :=
  (groups.takeWhile (· == 0)).length

/-- Where the longest row of zeros starts, the first one if there are several. -/
def longestZeros (groups : List Nat) : Nat :=
  (List.range groups.length).foldl
    (fun best i ↦ if zeros (groups.drop best) < zeros (groups.drop i) then i else best) 0

/-- Groups with colons between them, in digits of base sixteen. -/
def groupsText (groups : List Nat) : List Char :=
  [':'].intercalate (groups.map (Nat.toDigits 16))

/-- An address of sixteen bytes. Two colons stand for the longest row of zeros, unless it is a
single one. -/
def ipv6Form (text : List Char) : List Char :=
  let groups := ipv6Groups text
  let start := longestZeros groups
  let count := zeros (groups.drop start)
  if 1 < count then
    groupsText (groups.take start) ++ ':' :: ':' :: groupsText (groups.drop (start + count))
  else
    groupsText groups

/-! ### Authorities -/

/-- A label of a domain in ASCII. -/
def labelForm (label : List Char) : List Char :=
  if label.all fun c ↦ c.toNat < 0x80 then label
  else "xn--".toList ++ Domain.Punycode.encode label

/-- A host, as `host?` reads it. -/
def hostForm (isDomain : Bool) (part : List Char) : List Char :=
  match part with
  | '[' :: rest => '[' :: ipv6Form rest.dropLast ++ [']']
  | _ =>
    if isDomain then
      let labels := ((decode? part).bind Domain.labels?).getD []
      if isIpv4 labels then ['.'].intercalate ((ipv4Bytes labels).map (Nat.toDigits 10))
      else ['.'].intercalate (labels.map labelForm)
    else escapeAll [] part

/-- What is escaped in a fragment. -/
def fragmentMarks : List Char :=
  " \"<>`".toList

/-- What is escaped in a path. -/
def pathMarks : List Char :=
  fragmentMarks ++ "#?\x7b\x7d".toList

/-- What is escaped in a query, which on the web and for files has no quotes either. -/
def queryMarks (kind : Kind) : List Char :=
  " \"#<>".toList ++ if kind = .other then [] else ['\'']

/-- What is escaped in the name and the password of a user. -/
def userMarks : List Char :=
  pathMarks ++ "/:;=@[\\]^|".toList

/-- The user before the host, with a password if there is one. -/
def userForm (user : List Char) : List Char :=
  let name := user.takeWhile (· != ':')
  let password := user.drop (name.length + 1)
  if name.isEmpty && password.isEmpty then []
  else escapeAll userMarks name
    ++ (if password.isEmpty then [] else ':' :: escapeAll userMarks password) ++ ['@']

/-- The port that goes without saying. -/
def standardPort? (scheme : String) : Option Nat :=
  [("ftp", 21), ("http", 80), ("https", 443), ("ws", 80), ("wss", 443)].lookup scheme

/-- The port after the host, unless it goes without saying. -/
def portForm (scheme : String) (port : List Char) : List Char :=
  let digits := port.takeWhile Char.isDigit
  let number := (numberOf? 10 digits).getD 0
  if digits.isEmpty || standardPort? scheme == some number then []
  else ':' :: Nat.toDigits 10 number

/-- An authority, as `ofAuthority?` reads it. -/
def authorityForm (scheme : String) (kind : Kind) (text : List Char) : List Char :=
  let authority := text.takeWhile (· != '/')
  let address := (authority.reverse.takeWhile (· != '@')).reverse
  let user := authority.take (authority.length - address.length - 1)
  let name := beforePort false address
  userForm user ++ hostForm (kind == .web) name ++ portForm scheme (address.drop (name.length + 1))

/-- The host of a file, as `ofFile?` reads it. This machine has no name. -/
def fileHostForm (text : List Char) : List Char :=
  match text with
  | '/' :: '/' :: rest =>
    let name := rest.takeWhile (· != '/')
    let host := if name.isEmpty || isDrive name then [] else hostForm true name
    if host == "localhost".toList then [] else host
  | _ => []

/-! ### Paths -/

/-- The parts of the path of a file with dots resolved, after the parts `done`, which are reversed.
The letter of a drive that comes first stays there, with a colon after it. -/
def resolveInDrive : List (List Char) → List (List Char) → List (List Char)
  | done, [] => done.reverse
  | done, part :: parts =>
    let last := if parts.isEmpty then [[]] else []
    let above := if done.length == 1 && done.all isDrive then done else done.tail
    if isDot part then resolveInDrive (last ++ done) parts
    else if isDotDot part then resolveInDrive (last ++ above) parts
    else if done.isEmpty && isDrive part then resolveInDrive [part.take 1 ++ [':']] parts
    else resolveInDrive (part :: done) parts

/-- The path of a file. Slashes at its start count as one. -/
def filePathForm (path : List Char) : List Char :=
  absolute (Path.joinParts (resolveInDrive [] (Path.parts (path.drop 1))))

/-- A path, as `ofRest?` reads it. One that does not start with a slash is kept but for control
characters and what is not ASCII, and one that could be taken for an authority is marked. -/
def pathForm (kind : Kind) (hasAuthority : Bool) (path : List Char) : List Char :=
  match kind with
  | .file => escapeAll pathMarks (filePathForm path)
  | .web => escapeAll pathMarks (normalPath (if path.isEmpty then ['/'] else path))
  | .other =>
    if path.head? == some '/' then
      let path := normalPath path
      (if !hasAuthority && path.take 2 == ['/', '/'] then ['/', '.'] else [])
        ++ escapeAll pathMarks path
    else
      escapeAll [] path

/-! ### URIs -/

/-- A query and a fragment with the signs before them, if there are any. -/
def restForm (kind : Kind) (text : List Char) : List Char :=
  let query := text.takeWhile (· != '#')
  let fragment := text.drop query.length
  query.take 1 ++ escapeAll (queryMarks kind) (query.drop 1)
    ++ fragment.take 1 ++ escapeAll fragmentMarks (fragment.drop 1)

/-- What comes after the scheme and its colon, up to the query. -/
def bodyForm (scheme : String) (kind : Kind) (text path : List Char) : List Char :=
  let text := if kind = .other then text else text.map fun c ↦ if c == '\\' then '/' else c
  let slashes := "//".toList
  match kind with
  | .file =>
    let path := pathForm kind true path
    let host := if isDrive (path.drop 1 |>.takeWhile (· != '/')) then [] else fileHostForm text
    slashes ++ host ++ path
  | .web =>
    slashes ++ authorityForm scheme kind (text.dropWhile (· == '/')) ++ pathForm kind true path
  | .other =>
    if text.take 2 == slashes then
      slashes ++ authorityForm scheme kind (text.drop 2) ++ pathForm kind true path
    else
      pathForm kind false path

/-- The normal form of a URI. A text that is no URI stays as it is. -/
def normal (text : String) : String :=
  let whole := essence text.toList
  let scheme := whole.takeWhile (· != ':')
  let rest := whole.drop (scheme.length + 1)
  let body := rest.takeWhile fun c ↦ c != '?' && c != '#'
  let kind := Kind.ofScheme scheme
  match ofText? text, ofRest? kind (body.length < rest.length) body with
  | some _, some uri =>
    let name := scheme.map Char.toLower
    String.ofList (name ++ ':' :: bodyForm (String.ofList name) kind body uri.path
      ++ restForm kind (rest.drop body.length))
  | _, _ => text

end RuleLint.Uri
