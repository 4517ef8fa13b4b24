import GatewayControl.Net.Ip
import GatewayControl.Net.Percent

/-!
# `GatewayControl.Net.Url` -- absolute URLs

A URL is parsed from its text without a base. Schemes such as `http`, `ftp` and `ws` are special:
they need a host, and a backslash in them is a slash. The path is a list of encoded segments, or
opaque if nothing in the URL can serve as a base. `push` appends one segment, encoded so that it
stays one.
-/

namespace GatewayControl

/-- Why a text is not an absolute URL. -/
inductive UrlFault where
  | noBase
  | emptyHost
  | badPort
  | badIpv4
  | badIpv6
  | badDomainCharacter
  | badDomain
deriving DecidableEq, Repr

/-- The wording of a fault. -/
def UrlFault.message : UrlFault → String
  | noBase => "relative URL without a base"
  | emptyHost => "empty host"
  | badPort => "invalid port number"
  | badIpv4 => "invalid IPv4 address"
  | badIpv6 => "invalid IPv6 address"
  | badDomainCharacter => "invalid domain character"
  | badDomain => "invalid international domain name"

/-- The kinds of schemes: files, other special ones, and all others. -/
inductive SchemeKind where
  | file | special | other
deriving DecidableEq, Repr

/-- The kind of a scheme. -/
def SchemeKind.of (scheme : String) : SchemeKind :=
  if scheme = "file" then .file
  else if scheme ∈ ["http", "https", "ws", "wss", "ftp"] then .special
  else .other

/-- A slash for URLs of this kind. -/
def SchemeKind.isSlash (kind : SchemeKind) (c : Char) : Bool :=
  c == '/' || (c == '\\' && kind != .other)

/-- The port that a scheme implies. -/
def defaultPort? (scheme : String) : Option Nat :=
  if scheme = "http" ∨ scheme = "ws" then some 80
  else if scheme = "https" ∨ scheme = "wss" then some 443
  else if scheme = "ftp" then some 21
  else none

/-- The part of a URL between `//` and the path. -/
structure UrlAuthority where
  username : List Char
  password : Option (List Char)
  host : List Char
  port : Option Nat
deriving DecidableEq, Repr

/-- A path: opaque, or a list of segments each of which follows a slash. -/
inductive UrlPath where
  | fixed (text : List Char)
  | segments (segments : List (List Char))
deriving DecidableEq, Repr

/-- An absolute URL; every part is encoded. -/
structure Url where
  scheme : String
  authority : Option UrlAuthority
  path : UrlPath
  query : Option (List Char)
  fragment : Option (List Char)
deriving DecidableEq, Repr

namespace Url

/-! ## Encoding of the parts -/

/-- Characters that a fragment does not hold. -/
def fragmentEscapes (c : Char) : Bool := [' ', '"', '<', '>', '\x60'].contains c

/-- Characters that a path does not hold. -/
def pathEscapes (c : Char) : Bool := fragmentEscapes c || ['#', '?', '\x7b', '\x7d'].contains c

/-- Characters that the credentials do not hold. -/
def userinfoEscapes (c : Char) : Bool :=
  pathEscapes c || ['/', ':', ';', '=', '@', '[', '\\', ']', '^', '|'].contains c

/-- Characters that a pushed segment does not hold. -/
def segmentEscapes (kind : SchemeKind) (c : Char) : Bool :=
  pathEscapes c || c == '/' || c == '%' || (c == '\\' && kind != .other)

/-- Characters that a query does not hold. -/
def queryEscapes (kind : SchemeKind) (c : Char) : Bool :=
  [' ', '"', '#', '<', '>'].contains c || (c == '\'' && kind != .other)

/-- Tabs and line ends, which are dropped wherever they stand. -/
def isDropped (c : Char) : Bool := c == '\t' || c == '\n' || c == '\r'

/-! ## Text -/

/-- The text of an authority. -/
def authorityChars (a : UrlAuthority) : List Char :=
  let password := match a.password with
    | none => []
    | some p => ':' :: p
  let credentials := a.username ++ password
  let port := match a.port with
    | none => []
    | some p => ':' :: Nat.toDigits 10 p
  (if credentials.isEmpty then [] else credentials ++ ['@']) ++ a.host ++ port

/-- The text of a path. -/
def pathChars : UrlPath → List Char
  | .fixed text => text
  | .segments segments => segments.flatMap fun s => '/' :: s

/-- The text of a URL. A path that starts with two slashes and has no authority before it is
marked by a segment `.`. -/
def text (url : Url) : String :=
  let path := pathChars url.path
  let authority := match url.authority with
    | some a => '/' :: '/' :: authorityChars a
    | none => if "//".toList.isPrefixOf path then ['/', '.'] else []
  let query := match url.query with
    | none => []
    | some q => '?' :: q
  let fragment := match url.fragment with
    | none => []
    | some f => '#' :: f
  url.scheme ++ String.ofList (':' :: authority ++ path ++ query ++ fragment)

/-! ## Paths -/

/-- The segment climbs one level, in any of its spellings. -/
def isDoubleDot (s : List Char) : Bool :=
  ["..", "%2e%2e", ".%2e", "%2e."].contains (String.ofList (s.map Char.toLower))

/-- The segment stays where it is, in either of its spellings. -/
def isSingleDot (s : List Char) : Bool := [".", "%2e"].contains (String.ofList (s.map Char.toLower))

/-- A drive letter, followed by a colon or a bar. -/
def isDriveLetter : List Char → Bool
  | [c, d] => c.isAlpha && (d == ':' || d == '|')
  | _ => false

/-- The path without its last segment; the drive letter of a file stays. -/
def shorten (kind : SchemeKind) (segments : List (List Char)) : List (List Char) :=
  match segments with
  | [s] => if kind = .file ∧ isDriveLetter s then [s] else []
  | segments => segments.dropLast

/-- A drive letter with a bar for its colon, at the start of the path of a file. -/
def settleDrive (kind : SchemeKind) (before : List (List Char)) (s : List Char) : List Char :=
  if kind = .file ∧ before.isEmpty ∧ isDriveLetter s then s.take 1 ++ [':'] else s

/-- Takes encoded pieces into a path; the last piece leaves a segment even if it only climbs. -/
def walk (kind : SchemeKind) : List (List Char) → List (List Char) → List (List Char)
  | segments, [] => segments
  | segments, [last] =>
    if isDoubleDot last then shorten kind segments ++ [[]]
    else if isSingleDot last then segments ++ [[]]
    else segments ++ [settleDrive kind segments last]
  | segments, piece :: next :: rest =>
    if isDoubleDot piece then walk kind (shorten kind segments) (next :: rest)
    else if isSingleDot piece then walk kind segments (next :: rest)
    else walk kind (segments ++ [settleDrive kind segments piece]) (next :: rest)

/-- A file's path does not start with empty segments. -/
def settleFile (kind : SchemeKind) (segments : List (List Char)) : List (List Char) :=
  if kind = .file then
    match segments.dropWhile List.isEmpty with
    | [] => [[]]
    | segments => segments
  else segments

/-- The pieces of a path's text. -/
def pieces (kind : SchemeKind) (cs : List Char) : List (List Char) :=
  (cs.map fun c => if kind.isSlash c then '/' else c).splitOn '/'

/-- The path that follows an authority: a special URL has at least one segment. -/
def pathOf (kind : SchemeKind) (cs : List Char) : List (List Char) :=
  match cs with
  | [] => if kind = .other then [] else [[]]
  | c :: rest =>
    let body := if kind.isSlash c then rest else c :: rest
    settleFile kind (walk kind [] ((pieces kind body).map (Percent.encode pathEscapes)))

/-! ## Hosts -/

/-- The number of a part of an IPv4 host: decimal, octal after `0`, hexadecimal after `0x`. -/
def hostNumber? (s : List Char) : Option Nat :=
  let (base, digits) := match s with
    | '0' :: 'x' :: ds => (16, ds)
    | '0' :: 'X' :: ds => (16, ds)
    | '0' :: d :: ds => (8, d :: ds)
    | ds => (10, ds)
  if s.isEmpty then none
  else match spanDigits base digits with
    | (ds, []) => some (ofDigits base ds)
    | _ => none

/-- The parts of a host, without an empty last one. -/
def hostParts (host : List Char) : List (List Char) :=
  let parts := host.splitOn '.'
  if 1 < parts.length ∧ parts.getLast? = some [] then parts.dropLast else parts

/-- The last part of a host is a number, so the host has to be an IPv4 address. -/
def endsInNumber (host : List Char) : Bool :=
  match (hostParts host).getLast? with
  | none => false
  | some last =>
    (!last.isEmpty && last.all Char.isDigit) ||
      (match last with
       | '0' :: x :: ds => (x == 'x' || x == 'X') && ds.all fun c => (digitIn? 16 c).isSome
       | _ => false)

/-- The IPv4 address of a host: the last number fills the bytes that the others leave. -/
def hostIpv4 (host : List Char) : Except UrlFault (List Char) :=
  let parts := hostParts host
  match parts.mapM hostNumber? with
  | none => .error .badIpv4
  | some numbers =>
    let last := numbers.getLastD 0
    let front := numbers.dropLast
    -- a number in front is one byte, the last one is as wide as what is left
    if 4 < numbers.length ∨ front.any (255 < ·) ∨ Nat.pow 256 (5 - numbers.length) ≤ last then
      .error .badIpv4
    else
      let n := front.zipIdx.foldl (fun n (b, i) => n + b * Nat.pow 256 (3 - i)) last
      .ok (Ipv4.chars ⟨(n / 0x1000000).toUInt8, (n / 0x10000).toUInt8, (n / 256).toUInt8, n.toUInt8⟩)

/-- The text of an IPv6 host, in brackets and without an IPv4 form. -/
def ipv6Chars (ip : Ipv6) : List Char :=
  let (start, length) := Ipv6.longestZeros 0 ip.groups
  let body :=
    if 1 < length then
      Ipv6.groupChars (ip.groups.take start) ++
        ':' :: ':' :: Ipv6.groupChars (ip.groups.drop (start + length))
    else Ipv6.groupChars ip.groups
  '[' :: body ++ [']']

/-- The host of a text that starts with a bracket. -/
def bracketHost (cs : List Char) : Except UrlFault (List Char) :=
  if cs.getLast? ≠ some ']' then .error .badIpv6
  else match Ipv6.parse? (String.ofList cs.dropLast) with
    | none => .error .badIpv6
    | some ip => .ok (ipv6Chars ip)

/-- A character that no domain of a special URL holds. -/
def isForbiddenInDomain (c : Char) : Bool :=
  c.toNat ≤ 0x20 || c.toNat = 0x7f ||
    ['#', '/', ':', '<', '>', '?', '@', '[', '\\', ']', '^', '|', '%'].contains c

/-- The host of a special URL: a domain in lower case, or an address. Only ASCII domains are
understood. -/
def specialHost (cs : List Char) : Except UrlFault (List Char) :=
  match cs with
  | '[' :: rest => bracketHost rest
  | cs =>
    match Bytes.toText? (Percent.decode cs) with
    | none => .error .badDomain
    | some decoded =>
      let host := decoded.toList.map Char.toLower
      if host.any fun c => isForbiddenInDomain c || 0x80 ≤ c.toNat then .error .badDomain
      else if host.isEmpty then .error .emptyHost
      else if endsInNumber host then hostIpv4 host
      else .ok host

/-- The host of any other URL, kept as it stands. -/
def opaqueHost (cs : List Char) : Except UrlFault (List Char) :=
  match cs with
  | '[' :: rest => bracketHost rest
  | cs =>
    if cs.any fun c =>
        ['\x00', ' ', '#', '/', ':', '<', '>', '?', '@', '[', '\\', ']', '^', '|'].contains c then
      .error .badDomainCharacter
    else .ok (Percent.encode (fun _ => false) cs)

/-- The text before a port, colons in brackets aside, and what follows it. -/
def spanHost (inside : Bool) : List Char → List Char × List Char
  | [] => ([], [])
  | ':' :: rest =>
    if inside then let (host, rest) := spanHost inside rest; (':' :: host, rest)
    else ([], ':' :: rest)
  | c :: rest =>
    let (host, rest) := spanHost (if c = '[' then true else if c = ']' then false else inside) rest
    (c :: host, rest)

/-- The port after a host, unless the scheme implies it. -/
def portOf (scheme : String) : List Char → Except UrlFault (Option Nat)
  | ':' :: digits =>
    match spanDigits 10 digits with
    | ([], []) => .ok none
    | (ds, []) =>
      let port := ofDigits 10 ds
      if 65535 < port then .error .badPort
      else if some port = defaultPort? scheme then .ok none
      else .ok (some port)
    | _ => .error .badPort
  | _ => .ok none

/-- The credentials before the last `@`: a name, and a password after the first colon. -/
def credentialsOf (cs : List Char) : List Char × Option (List Char) :=
  let name := cs.takeWhile (· ≠ ':')
  let rest := (cs.dropWhile (· ≠ ':')).drop 1
  let encode := Percent.encode userinfoEscapes
  (encode name, if rest.isEmpty then none else some (encode rest))

/-- The authority that a text spells, `atEnd` telling that nothing follows it. -/
def authorityOf (scheme : String) (atEnd : Bool) (cs : List Char) : Except UrlFault UrlAuthority := do
  let kind := SchemeKind.of scheme
  let back := cs.reverse
  let afterAt := (back.takeWhile (· ≠ '@')).reverse
  let beforeAt := ((back.dropWhile (· ≠ '@')).drop 1).reverse
  -- credentials, even empty ones, ask for a host
  if cs.contains '@' && beforeAt.isEmpty && afterAt.isEmpty && !atEnd then throw .emptyHost
  let (username, password) := credentialsOf beforeAt
  let (hostText, portText) := spanHost false afterAt
  if kind = .special ∧ hostText.isEmpty then throw .emptyHost
  let host ← if kind = .special then specialHost hostText else opaqueHost hostText
  if host.isEmpty ∧ !portText.isEmpty then throw .emptyHost
  let port ← portOf scheme portText
  if host.isEmpty ∧ (!username.isEmpty ∨ password.isSome) then throw .emptyHost
  return ⟨username, password, host, port⟩

/-- The authority of a file: a host, or none. -/
def fileAuthority (cs : List Char) : Except UrlFault UrlAuthority :=
  if cs.isEmpty then .ok ⟨[], none, [], none⟩
  else (specialHost cs).map fun host => ⟨[], none, if host = "localhost".toList then [] else host, none⟩

/-! ## Parsing -/

/-- The scheme in lower case, and what follows its colon. -/
def schemeOf (cs : List Char) : Option (String × List Char) :=
  let isSchemeChar := fun c : Char => c.isAlphanum || c == '+' || c == '-' || c == '.'
  let scheme := cs.takeWhile isSchemeChar
  match scheme, cs.dropWhile isSchemeChar with
  | c :: _, ':' :: rest =>
    if c.isAlpha then some (String.ofList (scheme.map Char.toLower), rest) else none
  | _, _ => none

/-- Splits a text into what stands before the query, the query and the fragment. -/
def parts (cs : List Char) : List Char × Option (List Char) × Option (List Char) :=
  let body := cs.takeWhile (· ≠ '#')
  let fragment := match cs.dropWhile (· ≠ '#') with
    | _ :: f => some f
    | [] => none
  let query := match body.dropWhile (· ≠ '?') with
    | _ :: q => some q
    | [] => none
  (body.takeWhile (· ≠ '?'), query, fragment)

/-- The authority and the path after the colon of a scheme. -/
def hierarchyOf (scheme : String) (bare : Bool) (body : List Char) :
    Except UrlFault (Option UrlAuthority × UrlPath) :=
  let kind := SchemeKind.of scheme
  let withAuthority := fun cs =>
    let authority := cs.takeWhile fun c => !kind.isSlash c
    let path := cs.dropWhile fun c => !kind.isSlash c
    if kind = .file then
      -- a drive letter is no host but the start of the path
      if isDriveLetter authority then
        .ok (some ⟨[], none, [], none⟩, .segments (pathOf kind ('/' :: cs)))
      else
        (fileAuthority authority).map fun a => (some a, .segments (pathOf kind path))
    else
      (authorityOf scheme (bare && path.isEmpty) authority).map fun a =>
        (some a, .segments (pathOf kind path))
  match kind with
  | .special => withAuthority (body.dropWhile kind.isSlash)
  | .file =>
    match body with
    | a :: b :: rest =>
      if kind.isSlash a && kind.isSlash b then withAuthority rest
      else .ok (some ⟨[], none, [], none⟩, .segments (pathOf kind body))
    | body => .ok (some ⟨[], none, [], none⟩, .segments (pathOf kind body))
  | .other =>
    match body with
    | '/' :: '/' :: rest => withAuthority rest
    | '/' :: _ => .ok (none, .segments (pathOf kind body))
    | body => .ok (none, .fixed (Percent.encode (fun _ => false) body))

/-- The URL that a text spells. Blanks and controls around it are dropped. -/
def parse (input : String) : Except UrlFault Url :=
  let isEdge := fun c : Char => c.toNat ≤ 0x20
  let trimmed := ((input.toList.dropWhile isEdge).reverse.dropWhile isEdge).reverse
  let cs := trimmed.filter fun c => !isDropped c
  match schemeOf cs with
  | none => .error .noBase
  | some (scheme, rest) =>
    let kind := SchemeKind.of scheme
    let (body, query, fragment) := parts rest
    (hierarchyOf scheme (query.isNone && fragment.isNone) body).map fun (authority, path) =>
      ⟨scheme, authority, path, query.map (Percent.encode (queryEscapes kind)),
        fragment.map (Percent.encode fragmentEscapes)⟩

/-! ## Extending the path -/

/-- The segments of a URL that can serve as a base. -/
def segments? (url : Url) : Option (List (List Char)) :=
  match url.path with
  | .fixed _ => none
  | .segments segments => some segments

/-- The segments without an empty last one, unless it is the only one. -/
def popIfEmpty (segments : List (List Char)) : List (List Char) :=
  if 1 < segments.length ∧ segments.getLast? = some [] then segments.dropLast else segments

/-- Appends one segment. A segment `.` or `..` adds nothing; tabs and line ends are dropped from
every other one. -/
def pushSegment (kind : SchemeKind) (segments : List (List Char)) (s : String) : List (List Char) :=
  if s = "." ∨ s = ".." then segments
  else
    let encoded := Percent.encode (segmentEscapes kind) (s.toList.filter fun c => !isDropped c)
    -- the path of the root has one segment, which is empty and gives way
    let base := if segments = [[]] then [] else segments
    settleFile kind (walk kind base [encoded])

end Url

end GatewayControl
