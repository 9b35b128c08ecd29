import RuleLint.FileTree.Path
import RuleLint.Uri.Host

/-!
# URIs

Editors name documents by URIs: a scheme, perhaps an authority after two slashes, and a path, up to
a question mark or a number sign. An authority is a host, perhaps with a user before it and a port
after it. A text is no URI if it has no scheme, or if its authority has no meaning. Control
characters and spaces around a URI do not belong to it, and neither do tabs and breaks within.

A URI leads to a file on this machine if its path is absolute and its authority names no other
host; what its path has written as percent signs with two digits are the bytes of the name of the
file.
-/

namespace RuleLint

/-- What a URI consists of, apart from its scheme, query and fragment. -/
structure Uri where
  /-- The host in the authority; empty if there is none. -/
  host : List Char
  path : List Char
deriving DecidableEq, Repr

namespace Uri

/-! ### Parts of a URI -/

/-- Whether a part of a path stands for the directory it is in. -/
def isDot (part : List Char) : Bool :=
  part == ['.'] || part == ['%', '2', 'e'] || part == ['%', '2', 'E']

/-- Whether a part of a path stands for the directory above. -/
def isDotDot (part : List Char) : Bool :=
  match part with
  | '.' :: rest => isDot rest
  | '%' :: '2' :: 'e' :: rest => isDot rest
  | '%' :: '2' :: 'E' :: rest => isDot rest
  | _ => false

/-- The parts of a path with dots resolved, after the parts `done`, which are reversed. A path that
ends in dots leads to a directory and ends in an empty part. -/
def resolveDots : List (List Char) → List (List Char) → List (List Char)
  | done, [] => done.reverse
  | done, part :: parts =>
    let last := if parts.isEmpty then [[]] else []
    if isDot part then resolveDots (last ++ done) parts
    else if isDotDot part then resolveDots (last ++ done.tail) parts
    else resolveDots (part :: done) parts

/-- An absolute path with dots resolved. Other paths stay as they are. -/
def normalPath : List Char → List Char
  | '/' :: path => '/' :: Path.joinParts (resolveDots [] (Path.parts path))
  | path => path

/-- Whether a character around a URI does not belong to it. -/
def isMargin (c : Char) : Bool :=
  c.toNat ≤ 0x20

/-- A text without what does not belong to a URI. -/
def essence (text : List Char) : List Char :=
  let trimmed := ((text.dropWhile isMargin).reverse.dropWhile isMargin).reverse
  trimmed.filter fun c ↦ c != '\t' && c != '\n' && c != '\r'

/-- Whether a text can be a scheme. -/
def isScheme (text : List Char) : Bool :=
  text.head?.any Char.isAlpha && text.all fun c ↦ c.isAlphanum || c == '+' || c == '-' || c == '.'

/-- How a URI is read, which its scheme decides. -/
inductive Kind where
  /-- A file. If two slashes come first, the name of a host follows, without user and port. -/
  | file
  /-- A place on the web. There is always a host, however many slashes come first. -/
  | web
  /-- Anything else. If two slashes come first, an authority follows. -/
  | other
deriving DecidableEq, Repr

/-- The kind of the URIs with a scheme. -/
def Kind.ofScheme (scheme : List Char) : Kind :=
  let name := String.ofList (scheme.map Char.toLower)
  if name == "file" then .file
  else if ["ftp", "http", "https", "ws", "wss"].contains name then .web
  else .other

/-- The part of an authority before its port. Colons between brackets belong to the host. -/
def beforePort (isInside : Bool) : List Char → List Char
  | [] => []
  | c :: rest =>
    if c == ':' && !isInside then []
    else c :: beforePort (c == '[' || c != ']' && isInside) rest

/-- What follows a port. The port may be empty but has to fit into 16 bits. If anything follows, it
is a path: a backslash ends a port even where it is no slash. -/
def afterPort? (text : List Char) : Option (List Char) :=
  let rest := text.dropWhile Char.isDigit
  if (numberOf? 10 (text.takeWhile Char.isDigit)).any (· < 0x10000)
      && rest.head?.all (· == '\\') then
    some rest
  else
    none

/-- The host and the path in what follows the slashes before an authority; `hasMore` tells whether
a query or a fragment comes after it. The user is what comes before the last at sign. A host that
is empty, which on the web none is, has neither user nor port; a colon alone is no user. An at sign
with nothing before it may end a URI, but not an authority that something comes after. -/
def ofAuthority? (kind : Kind) (hasMore : Bool) (text : List Char) : Option Uri := do
  let authority := text.takeWhile (· != '/')
  let path := text.dropWhile (· != '/')
  let address := (authority.reverse.takeWhile (· != '@')).reverse
  let user? := if authority.contains '@' then
      some (authority.take (authority.length - address.length - 1))
    else
      none
  let hasUser := user?.any fun user ↦ user != [] && user != [':']
  let name := beforePort false address
  let host ← host? (kind == .web) name
  let rest ← match address.drop name.length with
    | ':' :: port => afterPort? port
    | _ => some []
  let isBare := name.length == address.length && !hasUser
  let isCut := user? == some [] && address.isEmpty && (hasMore || !path.isEmpty)
  if (host.isEmpty && !isBare) || isCut then none
  return ⟨host, if rest.isEmpty then path else '/' :: rest ++ path⟩

/-- Whether a text is the letter of a drive with what comes after it. -/
def isDrive (text : List Char) : Bool :=
  match text with
  | [letter, mark] => letter.isAlpha && (mark == ':' || mark == '|')
  | _ => false

/-- The host and the path in what follows the scheme of a file. The letter of a drive is no host. -/
def ofFile? (text : List Char) : Option Uri :=
  match text with
  | '/' :: '/' :: rest =>
    let name := rest.takeWhile (· != '/')
    if name.isEmpty || isDrive name then some ⟨[], rest⟩
    else (host? true name).map fun host ↦ ⟨host, rest.dropWhile (· != '/')⟩
  | path => some ⟨[], path⟩

/-- A path that starts with a single slash. -/
def absolute (path : List Char) : List Char :=
  '/' :: path.dropWhile (· == '/')

/-- The parts of a URI of a kind in what follows its scheme; `hasMore` tells whether a query or a
fragment comes after it. -/
def ofRest? (kind : Kind) (hasMore : Bool) (text : List Char) : Option Uri :=
  let text := if kind = .other then text else text.map fun c ↦ if c == '\\' then '/' else c
  match kind with
  | .file => (ofFile? text).map fun uri ↦ { uri with path := absolute uri.path }
  | .web => ofAuthority? kind hasMore (text.dropWhile (· == '/'))
  | .other =>
    match text with
    | '/' :: '/' :: rest => ofAuthority? kind hasMore rest
    | path => some ⟨[], path⟩

/-- The parts of a URI. -/
def ofText? (text : String) : Option Uri :=
  let text := essence text.toList
  let scheme := text.takeWhile (· != ':')
  match text.dropWhile (· != ':') with
  | ':' :: rest =>
    let body := rest.takeWhile fun c ↦ c != '?' && c != '#'
    if isScheme scheme then
      (ofRest? (Kind.ofScheme scheme) (body.length < rest.length) body).map fun uri ↦
        { uri with path := normalPath uri.path }
    else
      none
  | _ => none

/-! ### Extensions and files -/

/-- What follows the last dot of the path. -/
def extension? (uri : Uri) : Option String :=
  if uri.path.contains '.' then
    some (String.ofList (uri.path.reverse.takeWhile (· != '.')).reverse)
  else
    none

/-- A part of a path with the bytes it stands for. If they are not the bytes of a text, a zero
character stands for them: no file has either in its name. -/
def decodePart (part : List Char) : List Char :=
  (decode? part).getD ['\x00']

/-- The path of the file on this machine that a URI leads to. -/
def filePath? (uri : Uri) : Option Path :=
  if (uri.host.isEmpty || uri.host == "localhost".toList) && uri.path.head? == some '/' then
    some (String.ofList (Path.joinParts ((Path.parts uri.path).map decodePart)))
  else
    none

end Uri

end RuleLint
