import FixtureCheck.Text.Quoted

/-!
# Addresses of endpoints

`Address.ofText` takes an address apart as far as its host and its path, `Address.hostName` is the name under which an
endpoint is filed: the host, or the path if there is no host, up to the first colon and with underscores for slashes.

A host between brackets has to be a literal address of version 6 or later; `isIpv4` and `isIpv6` are the literal forms.
-/

namespace FixtureCheck.Network

/-- Why a text is no address. -/
inductive AddressError where
  | brackets
  | futureVersion
  | version4
  | notLiteral (host : String)
  /-- The host has characters that stand for the separators of addresses. -/
  | separators (host : String)
  deriving DecidableEq, Repr

/-- The message about an error. -/
def AddressError.message : AddressError → String
  | brackets => "Invalid IPv6 URL"
  | futureVersion => "IPvFuture address is invalid"
  | version4 => "An IPv4 address cannot be in brackets"
  | notLiteral host => s!"{Text.quoted host} does not appear to be an IPv4 or IPv6 address"
  | separators host => s!"netloc '{host}' contains invalid characters under NFKC normalization"

/-! ## Splitting -/

/-- The texts before and after the first character of a kind; nothing after it if there is none. -/
def cutAt (p : Char → Bool) (cs : List Char) : List Char × List Char :=
  (cs.takeWhile (!p ·), (cs.dropWhile (!p ·)).drop 1)

/-- The pieces of a text between separators. -/
def splitAt (separator : Char) : List Char → List (List Char)
  | [] => [[]]
  | c :: cs =>
    if c == separator then [] :: splitAt separator cs
    else
      match splitAt separator cs with
      | piece :: rest => (c :: piece) :: rest
      | [] => [[c]]

/-! ## Literal addresses -/

/-- A number of at most three digits below 256 without leading zeros. -/
def isOctet (cs : List Char) : Bool :=
  !cs.isEmpty && cs.all (·.isDigit) && cs.length ≤ 3 && (cs.length == 1 || cs.head? != some '0') &&
    cs.foldl (fun n c => 10 * n + (c.toNat - '0'.toNat)) 0 ≤ 255

/-- A literal address of version 4. -/
def isIpv4 (cs : List Char) : Bool :=
  let parts := splitAt '.' cs
  parts.length == 4 && parts.all isOctet

/-- A hexadecimal digit. -/
def isHexDigit (c : Char) : Bool := c.isDigit || ('a' ≤ c && c ≤ 'f') || ('A' ≤ c && c ≤ 'F')

/-- One to four hexadecimal digits. -/
def isGroup (cs : List Char) : Bool := !cs.isEmpty && cs.length ≤ 4 && cs.all isHexDigit

/-- The groups before and after the empty one may be empty too at the ends of an address. -/
def isGap (before after : List (List Char)) : Bool :=
  let left := if before == [[]] then [] else before
  let right := if after == [[]] then [] else after
  left.all isGroup && right.all isGroup && left.length + right.length < 8

/-- The groups of a literal address of version 6. -/
def areGroups (parts : List (List Char)) : Bool :=
  let inner := (parts.drop 1).dropLast
  match inner.filter (·.isEmpty) with
  | [] => parts.length == 8 && parts.all isGroup
  | [_] =>
    let i := inner.findIdx (·.isEmpty) + 1
    parts.length ≤ 9 && isGap (parts.take i) (parts.drop (i + 1))
  | _ => false

/-- A literal address of version 6, perhaps with an address of version 4 at its end and with a zone. -/
def isIpv6 (cs : List Char) : Bool :=
  let (address, zone) := cutAt (· == '%') cs
  let hasZone := cs.contains '%'
  let parts := splitAt ':' address
  let last := parts.getLastD []
  let parts := if last.contains '.' && isIpv4 last then parts.dropLast ++ [['0'], ['0']] else parts
  !cs.contains '/' && 3 ≤ (splitAt ':' address).length && areGroups parts &&
    (!hasZone || (!zone.isEmpty && !zone.contains '%'))

/-- Checks a literal address between brackets. -/
def checkLiteral (host : List Char) : Except AddressError Unit :=
  if host.head? == some 'v' then
    let (version, rest) := cutAt (· == '.') (host.drop 1)
    if !version.isEmpty && version.all isHexDigit && !rest.isEmpty && !rest.contains '\n' then .ok ()
    else .error .futureVersion
  else if isIpv4 host then .error .version4
  else if isIpv6 host then .ok ()
  else .error (.notLiteral (String.ofList host))

/-- Checks the brackets of a host: they come together, and the first ones hold a literal address. -/
def checkBrackets (host : List Char) : Except AddressError Unit :=
  if host.contains '[' != host.contains ']' then .error .brackets
  else if host.contains '[' then checkLiteral (cutAt (· == ']') (cutAt (· == '[') host).2).1
  else .ok ()

/-! ## Addresses -/

/-- Characters whose compatibility forms hold one of the separators of addresses. -/
def separatorForms : List Nat := [
  0x2047, 0x2048, 0x2049, 0x2100, 0x2101, 0x2105, 0x2106, 0x2a74, 0xfe13, 0xfe16, 0xfe55, 0xfe56, 0xfe5f, 0xfe6b,
  0xff03, 0xff0f, 0xff1a, 0xff1f, 0xff20]

/-- The schemes whose paths may have parameters. -/
def schemesWithParameters : List String := [
  "", "ftp", "hdl", "prospero", "http", "imap", "https", "shttp", "rtsp", "rtspu", "sip", "sips", "mms", "sftp", "tel"]

/-- An address, as far as it is needed. -/
structure Address where
  /-- The host with what stands beside it: a user in front, a number behind. -/
  authority : String
  path : String
  deriving DecidableEq, Repr

/-- May the character stand in a scheme? -/
def isSchemeChar (c : Char) : Bool := c.isAlphanum || c == '+' || c == '-' || c == '.'

/-- The scheme of an address and the rest of it. -/
def cutScheme (cs : List Char) : String × List Char :=
  let before := cs.takeWhile (· != ':')
  if cs.contains ':' && (before.head?.any Char.isAlpha) && before.all isSchemeChar then
    (String.ofList (before.map Char.toLower), cs.drop (before.length + 1))
  else ("", cs)

/-- Does the character end the host? -/
def endsAuthority (c : Char) : Bool := c == '/' || c == '?' || c == '#'

/-- A path without its parameters: what follows the first semicolon of its last part. -/
def withoutParameters (path : List Char) : List Char :=
  let last := (path.reverse.takeWhile (· != '/')).reverse
  path.take (path.length - last.length) ++ last.takeWhile (· != ';')

/-- The parts of an address. Blanks in front and line breaks and tabs anywhere do not count. -/
def Address.ofText (text : String) : Except AddressError Address := do
  let cs := (text.toList.dropWhile (·.toNat ≤ 0x20)).filter fun c => c != '\t' && c != '\r' && c != '\n'
  let (scheme, rest) := cutScheme cs
  let (authority, rest) :=
    match rest with
    | '/' :: '/' :: rest => (rest.takeWhile (!endsAuthority ·), rest.dropWhile (!endsAuthority ·))
    | rest => ([], rest)
  checkBrackets authority
  let path := (cutAt (· == '?') (cutAt (· == '#') rest).1).1
  if authority.any fun c => separatorForms.contains c.toNat then throw (.separators (String.ofList authority))
  let path := if schemesWithParameters.contains scheme then withoutParameters path else path
  return ⟨String.ofList authority, String.ofList path⟩

/-- The name under which an endpoint is filed. -/
def Address.hostName (a : Address) : String :=
  let name := if a.authority.isEmpty then a.path else a.authority
  String.ofList ((name.toList.takeWhile (· != ':')).map fun c => if c == '/' then '_' else c)

end FixtureCheck.Network
