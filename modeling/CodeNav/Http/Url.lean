import CodeNav.Text.Decimal
import CodeNav.Text.Utf8

/-! # Addresses of the web

An address is read as a browser reads it: blanks around it do not count, backslashes are slashes,
dot segments are resolved, a default port is left out, and what may not stand for itself is
percent-encoded. A host name has ASCII characters only, and an address in brackets is kept as it is
written.
-/

namespace CodeNav.Http

inductive UrlError where
  | relative
  | emptyHost
  | badHost
  | badIpv4
  | badPort
  deriving DecidableEq, Repr

def UrlError.message : UrlError → String
  | relative => "relative URL without a base"
  | emptyHost => "empty host"
  | badHost => "invalid international domain name"
  | badIpv4 => "invalid IPv4 address"
  | badPort => "invalid port number"

structure Url where
  scheme : String
  host : String
  /-- A port that is not the default one of the scheme. -/
  port? : Option Nat
  /-- What follows the host, encoded. -/
  path : String
  query? : Option String
  fragment? : Option String
  deriving DecidableEq, Repr

namespace Url

/-- The schemes whose addresses have a host, with their default ports. -/
def defaultPorts : List (String × Nat) := [("http", 80), ("https", 443), ("ftp", 21), ("ws", 80),
  ("wss", 443)]

def isControlOrBlank (c : Char) : Bool := decide (c.toNat ≤ 32)

/-- The text without controls and blanks around it and without tabs and line ends in it. -/
def cleaned (text : List Char) : List Char :=
  let text := text.dropWhile isControlOrBlank
  let text := (text.reverse.dropWhile isControlOrBlank).reverse
  text.filter fun c => !(c = '\t' || c = '\n' || c = '\r')

def isSchemeCharacter (c : Char) : Bool := c.isAlphanum || c = '+' || c = '-' || c = '.'

/-- The scheme, in lower case, and what comes after its colon. -/
def splitScheme? (text : List Char) : Option (String × List Char) :=
  let scheme := text.takeWhile isSchemeCharacter
  match text.dropWhile isSchemeCharacter with
  | ':' :: rest =>
    if scheme.head?.any Char.isAlpha then some (String.ofList (scheme.map Char.toLower), rest)
    else none
  | _ => none

def hexDigit (n : Nat) : Char := (Nat.digitChar n).toUpper

def percentByte (b : UInt8) : List Char := ['%', hexDigit (b.toNat / 16), hexDigit (b.toNat % 16)]

/-- Encodes the given ASCII characters and all that are controls or no ASCII. -/
def percentEncode (reserved : List Char) (text : List Char) : List Char :=
  text.flatMap fun c =>
    if c.toNat < 32 || 126 < c.toNat || reserved.contains c then
      (Text.Utf8.encode [c]).flatMap percentByte
    else [c]

def fragmentReserved : List Char := [' ', '"', '<', '>', (Char.ofNat 96)]

def queryReserved : List Char := [' ', '"', '#', '<', '>', '\'']

def pathReserved : List Char := fragmentReserved ++ ['#', '?', '{', '}']

def isSlash (c : Char) : Bool := c = '/' || c = '\\'

def segments : List Char → List (List Char)
  | [] => [[]]
  | c :: text =>
    if isSlash c then [] :: segments text
    else
      match segments text with
      | [] => [[c]]
      | segment :: rest => (c :: segment) :: rest

/-- Reads an encoded dot as a dot. -/
def decodeDots : List Char → List Char
  | '%' :: '2' :: 'e' :: rest => '.' :: decodeDots rest
  | '%' :: '2' :: 'E' :: rest => '.' :: decodeDots rest
  | c :: rest => c :: decodeDots rest
  | [] => []

/-- Resolves dot segments; the segments before are in reverse order. -/
def resolveDots : List (List Char) → List (List Char) → List (List Char)
  | before, [] => before.reverse
  | before, segment :: rest =>
    let last := rest.isEmpty
    if decodeDots segment = ['.', '.'] then
      resolveDots (if last then [] :: before.tail else before.tail) rest
    else if decodeDots segment = ['.'] then
      resolveDots (if last then [] :: before else before) rest
    else resolveDots (segment :: before) rest

/-- The path after a host, with the slash at its start. -/
def normalPath (text : List Char) : List Char :=
  let body := match text with
    | c :: rest => if isSlash c then rest else text
    | [] => []
  '/' :: ['/'].intercalate (resolveDots [] ((segments body).map (percentEncode pathReserved)))

/-- A part of an IPv4 address: a decimal number, an octal one after a zero, or a hexadecimal one. -/
def ipv4Part? (part : List Char) : Option Nat :=
  let digits (base : Nat) (text : List Char) : Option Nat :=
    text.foldlM (fun n c =>
      let d := if c.isDigit then c.toNat - 48 else if c.isLower then c.toNat - 87 else base
      if d < base then some (n * base + d) else none) 0
  match part with
  | [] => none
  | '0' :: 'x' :: rest => digits 16 rest
  | '0' :: rest => digits 8 rest
  | _ => digits 10 part

/-- The number of an IPv4 address from those of its parts, of which the last fills what is left. -/
def ipv4Number? (parts : List Nat) : Option Nat :=
  match parts.reverse with
  | [] => none
  | last :: before =>
    if 4 < parts.length || before.any (255 < ·) || 1 <<< (8 * (5 - parts.length)) ≤ last then none
    else
      let high := before.reverse.foldl (fun n part => n * 256 + part) 0
      some (high <<< (8 * (5 - parts.length)) + last)

def ipv4Text (n : Nat) : String :=
  ".".intercalate ([n >>> 24, n >>> 16 % 256, n >>> 8 % 256, n % 256].map toString)

/-- The labels of a host name, without an empty one at the end. -/
def labels (host : List Char) : List (List Char) :=
  let all := (String.ofList host).splitOn "." |>.map String.toList
  if all.getLast? = some [] && 1 < all.length then all.dropLast else all

/-- Whether a host name has to be an IPv4 address. -/
def endsInNumber (host : List Char) : Bool :=
  match (labels host).getLast? with
  | some last => !last.isEmpty && (last.all Char.isDigit ||
      (last.take 2 = ['0', 'x'] && (ipv4Part? last).isSome))
  | none => false

def forbiddenInHost : List Char :=
  [' ', '#', '/', ':', '<', '>', '?', '@', '[', '\\', ']', '^', '|', '%']

def hexDigitValue? (c : Char) : Option Nat :=
  if c.isDigit then some (c.toNat - 48)
  else if 'a' ≤ c ∧ c ≤ 'f' then some (c.toNat - 87)
  else if 'A' ≤ c ∧ c ≤ 'F' then some (c.toNat - 55)
  else none

def percentDecode : List Char → List UInt8
  | '%' :: a :: b :: rest =>
    match hexDigitValue? a, hexDigitValue? b with
    | some m, some n => UInt8.ofNat (m * 16 + n) :: percentDecode rest
    | _, _ => 37 :: percentDecode (a :: b :: rest)
  | c :: rest => Text.Utf8.encode [c] ++ percentDecode rest
  | [] => []

def readHost (text : List Char) : Except UrlError String :=
  if text.isEmpty then .error .emptyHost
  else if text.head? = some '[' && text.getLast? = some ']' then
    .ok (String.ofList (text.map Char.toLower))
  else
    let name := (Text.Utf8.lenient (percentDecode text)).map Char.toLower
    if name.any fun c => c.toNat < 32 || 126 < c.toNat || forbiddenInHost.contains c then
      .error .badHost
    else if endsInNumber name then
      match (((labels name).mapM ipv4Part?).bind ipv4Number?) with
      | some n => .ok (ipv4Text n)
      | none => .error .badIpv4
    else .ok (String.ofList name)

/-- Splits a host from the port after it. A colon in brackets begins no port. -/
def splitPort (text : List Char) : List Char × Option (List Char) :=
  let body := text.reverse.takeWhile fun c => c ≠ ':' && c ≠ ']'
  match text.reverse.drop body.length with
  | ':' :: before => (before.reverse, some body.reverse)
  | _ => (text, none)

def readPort (scheme : String) : Option (List Char) → Except UrlError (Option Nat)
  | none => .ok none
  | some [] => .ok none
  | some digits =>
    if !digits.all Char.isDigit then .error .badPort
    else
      let n := digits.foldl (fun n c => n * 10 + (c.toNat - 48)) 0
      if 65535 < n then .error .badPort
      else if defaultPorts.lookup scheme = some n then .ok none
      else .ok (some n)

/-- What comes after the last at sign, which ends the user info. -/
def dropUserInfo (authority : List Char) : List Char :=
  (authority.reverse.takeWhile (· ≠ '@')).reverse

/-- Cuts a text at the first of the given characters, which is left out. -/
def cutAt (c : Char) (text : List Char) : List Char × Option (List Char) :=
  (text.takeWhile (· ≠ c), (text.dropWhile (· ≠ c)).tail?)

/-- Reads an address. An address of a scheme without hosts has an empty one. -/
def ofText (text : List Char) : Except UrlError Url := do
  let some (scheme, rest) := splitScheme? (cleaned text) | throw .relative
  let (rest, fragment) := cutAt '#' rest
  let (rest, query) := cutAt '?' rest
  let fragment? := fragment.map fun s => String.ofList (percentEncode fragmentReserved s)
  let query? := query.map fun s => String.ofList (percentEncode queryReserved s)
  if (defaultPorts.lookup scheme).isNone then
    return ⟨scheme, "", none, String.ofList (percentEncode [] rest), query?, fragment?⟩
  let rest := rest.dropWhile isSlash
  let (name, port) := splitPort (dropUserInfo (rest.takeWhile (!isSlash ·)))
  let path := String.ofList (normalPath (rest.dropWhile (!isSlash ·)))
  return ⟨scheme, ← readHost name, ← readPort scheme port, path, query?, fragment?⟩

/-- The part of an address that is sent to the host. -/
def target (url : Url) : String := url.path ++ (url.query?.map ("?" ++ ·)).getD ""

def text (url : Url) : String :=
  let authority := if url.host.isEmpty then "" else
    "//" ++ url.host ++ (url.port?.map fun n => ":" ++ toString n).getD ""
  url.scheme ++ ":" ++ authority ++ url.target ++ (url.fragment?.map ("#" ++ ·)).getD ""

/-- Whether the host is given by its address, not by a name. -/
def hasAddress (url : Url) : Bool :=
  url.host.startsWith "[" || endsInNumber url.host.toList || url.host == "localhost"

end Url

end CodeNav.Http
