import PoolWatch.Url.Host

/-!
# Addresses

An address has a scheme, in most cases a host, a path, and perhaps a query and a fragment. Reading
one brings it into its normal form, which is also how it is written.
-/

namespace PoolWatch

structure Url where
  scheme : List Char
  user : List Char
  password : Option (List Char)
  host : Option (List Char)
  port : Option Nat
  path : List Char
  query : Option (List Char)
  fragment : Option (List Char)
deriving DecidableEq

namespace Url

/-! ## Writing -/

def userChars (u : Url) : List Char :=
  let password := match u.password with
    | some p => ':' :: p
    | none => []
  if u.user.isEmpty && password.isEmpty then [] else u.user ++ password ++ ['@']

def portChars (u : Url) : List Char :=
  match u.port with
  | some n => ':' :: Nat.toDigits 10 n
  | none => []

/-- The host with what belongs to it. Without a host, a path must not look like one. -/
def hostChars (u : Url) : List Char :=
  match u.host with
  | some h => '/' :: '/' :: (u.userChars ++ h ++ u.portChars)
  | none => if "//".toList.isPrefixOf u.path then ['/', '.'] else []

def optional (mark : Char) : Option (List Char) → List Char
  | some cs => mark :: cs
  | none => []

def chars (u : Url) : List Char :=
  u.scheme ++ ':' :: (u.hostChars ++ u.path ++ optional '?' u.query ++ optional '#' u.fragment)

def text (u : Url) : String := String.ofList u.chars

/-! ## Schemes -/

/-- The schemes whose addresses always have a host, with their ports. -/
def hostedSchemes : List (String × Nat) :=
  [("http", 80), ("https", 443), ("ws", 80), ("wss", 443), ("ftp", 21)]

def isSchemeChar (c : Char) : Bool := c.isAlphanum || c == '+' || c == '-' || c == '.'

/-- The scheme in small letters, and what is behind its colon. -/
def cutScheme? (cs : List Char) : Option (List Char × List Char) :=
  match Text.cut (· == ':') cs with
  | (scheme, some rest) =>
    if scheme.all isSchemeChar && scheme.head?.any Char.isAlpha then
      some (scheme.map Char.toLower, rest)
    else none
  | (_, none) => none

/-! ## Characters that are encoded -/

def inFragment (c : Char) : Bool := " \"<>`".toList.contains c

def inPath (c : Char) : Bool := inFragment c || "#?{}".toList.contains c

def inUser (c : Char) : Bool := inPath c || "/:;=@[\\]^|".toList.contains c

def inQuery (hosted : Bool) (c : Char) : Bool :=
  " \"#<>".toList.contains c || (hosted && c == '\'')

/-! ## Paths -/

/-- Dots in a segment may be encoded. -/
def plainDots : List Char → List Char
  | '%' :: '2' :: 'e' :: cs => '.' :: plainDots cs
  | '%' :: '2' :: 'E' :: cs => '.' :: plainDots cs
  | c :: cs => c :: plainDots cs
  | [] => []

/-- The segments of a path with the dots resolved. Those before are given in reverse. -/
def resolve (before : List (List Char)) : List (List Char) → List (List Char)
  | [] => before.reverse
  | [s] =>
    if plainDots s = ['.', '.'] then ([] :: before.tail).reverse
    else if plainDots s = ['.'] then ([] :: before).reverse
    else (percentEncode inPath s :: before).reverse
  | s :: rest =>
    if plainDots s = ['.', '.'] then resolve before.tail rest
    else if plainDots s = ['.'] then resolve before rest
    else resolve (percentEncode inPath s :: before) rest

/-- A backslash counts as a slash where there is a host. -/
def isSlash (hosted : Bool) (c : Char) : Bool := c == '/' || (hosted && c == '\\')

/-- A path of segments. Where there is a host, the path begins with a slash. -/
def pathChars (hosted : Bool) (raw : List Char) : List Char :=
  match raw with
  | [] => if hosted then ['/'] else []
  | c :: cs =>
    let inside := if isSlash hosted c then cs else c :: cs
    (resolve [] (Text.split (isSlash hosted) inside)).flatMap ('/' :: ·)

/-! ## Hosts and ports -/

/-- What is before the last `@`, if there is one, and what is behind it. -/
def cutUser (cs : List Char) : Option (List Char) × List Char :=
  match Text.cut (· == '@') cs.reverse with
  | (behind, some before) => (some before.reverse, behind.reverse)
  | (_, none) => (none, cs)

/-- The host as it is written, up to a colon that stands outside brackets. -/
def cutPort (inside : Bool) : List Char → List Char × Option (List Char)
  | [] => ([], none)
  | c :: cs =>
    if c == ':' && !inside then ([], some cs)
    else
      let (host, port) := cutPort (if c == '[' then true else if c == ']' then false else inside) cs
      (c :: host, port)

/-- A port up to 65535. The usual one of the scheme is left out. -/
def port? (usual : Option Nat) : Option (List Char) → Option (Option Nat)
  | none => some none
  | some cs =>
    if cs.all Char.isDigit then
      match numberIn? 10 cs with
      | some n =>
        if cs.isEmpty || some n = usual then some none
        else if n < 65536 then some (some n) else none
      | none => none
    else none

/-- An address without its path, its query and its fragment. -/
def ofAuthority? (scheme : List Char) (usual : Option Nat) (authority : List Char) : Option Url :=
  let (user, behind) := cutUser authority
  let (host, port) := cutPort false behind
  let user := user.getD []
  let (name, password) := Text.cut (· == ':') user
  let password := match password with
    | some [] | none => none
    | some p => some (percentEncode inUser p)
  if host.isEmpty && (usual.isSome || port.isSome || !user.isEmpty) then none
  else
    let host :=
      if usual.isSome then host? host
      else if host.isEmpty then some []
      else opaqueHost? host
    match host, port? usual port with
    | some h, some p =>
      some ⟨scheme, percentEncode inUser name, password, some h, p, [], none, none⟩
    | _, _ => none

/-! ## Reading -/

/-- An address whose scheme asks for a host. How many slashes there are does not matter. -/
def ofHosted? (scheme : List Char) (usual : Nat) (rest : List Char) : Option Url :=
  let rest := rest.dropWhile (isSlash true)
  let path := rest.dropWhile (!isSlash true ·)
  (ofAuthority? scheme (some usual) (rest.takeWhile (!isSlash true ·))).map fun u =>
    { u with path := pathChars true path }

def ofFile? (rest : List Char) : Option Url :=
  let file : Url := ⟨"file".toList, [], none, some [], none, [], none, none⟩
  match rest with
  | c :: d :: cs =>
    if isSlash true c && isSlash true d then
      let name := cs.takeWhile (!isSlash true ·)
      let path := cs.dropWhile (!isSlash true ·)
      if name.isEmpty then some { file with path := pathChars true path }
      else if name.length = 2 && name.getLast? == some ':' then
        some { file with path := pathChars true cs }
      else (host? name).map fun h =>
        let h := if h = "localhost".toList then [] else h
        { file with host := some h, path := pathChars true path }
    else some { file with path := pathChars true rest }
  | _ => some { file with path := pathChars true rest }

def ofOther? (scheme : List Char) (rest : List Char) : Option Url :=
  match rest with
  | '/' :: '/' :: cs =>
    (ofAuthority? scheme none (cs.takeWhile (· != '/'))).map fun u =>
      { u with path := pathChars false (cs.dropWhile (· != '/')) }
  | '/' :: _ => some ⟨scheme, [], none, none, none, pathChars false rest, none, none⟩
  | _ => some ⟨scheme, [], none, none, none, percentEncode (fun _ => false) rest, none, none⟩

/-- Blanks and controls around an address do not belong to it, nor do line breaks and tabs in it. -/
def cleaned (cs : List Char) : List Char :=
  let outside := fun (c : Char) => c.toNat ≤ 0x20
  let inner := ((cs.dropWhile outside).reverse.dropWhile outside).reverse
  inner.filter fun c => c != '\t' && c != '\n' && c != '\r'

/-- Reads an address in full, with its scheme. -/
def parse? (s : String) : Option Url :=
  match cutScheme? (cleaned s.toList) with
  | none => none
  | some (scheme, rest) =>
    let (rest, fragment) := Text.cut (· == '#') rest
    let (rest, query) := Text.cut (· == '?') rest
    let usual := hostedSchemes.lookup (String.ofList scheme)
    let isFile := scheme == "file".toList
    let found := match usual with
      | some port => ofHosted? scheme port rest
      | none => if isFile then ofFile? rest else ofOther? scheme rest
    found.map fun u =>
      { u with
        query := query.map (percentEncode (inQuery (usual.isSome || isFile)))
        fragment := fragment.map (percentEncode inFragment) }

/-! ## Addresses at a place -/

/-- The segments of a path without the last one, in reverse. -/
def folders (path : List Char) : List (List Char) :=
  ((Text.split (· == '/') path).drop 1).reverse.drop 1

/-- What an address without a scheme means at a place that has a host. What it leaves out is as it
is there. -/
def relative? (place : Url) (cs : List Char) : Option Url :=
  let (cs, fragment) := Text.cut (· == '#') cs
  let (path, query) := Text.cut (· == '?') cs
  let query := query.map (percentEncode (inQuery true))
  let fragment := fragment.map (percentEncode inFragment)
  let slashes := (path.takeWhile (isSlash true)).length
  if path.isEmpty then some { place with query := query.or place.query, fragment }
  else if 2 ≤ slashes then
    (hostedSchemes.lookup (String.ofList place.scheme)).bind fun usual =>
      (ofHosted? place.scheme usual path).map fun u => { u with query, fragment }
  else
    let before := if slashes = 0 then folders place.path else []
    let segments := resolve before (Text.split (isSlash true) (path.drop slashes))
    some { place with path := segments.flatMap ('/' :: ·), query, fragment }

/-- What an address means at a place that has a host. Its own scheme without two slashes adds
nothing. -/
def join? (place : Url) (s : String) : Option Url :=
  let cs := cleaned s.toList
  match cutScheme? cs with
  | some (scheme, rest) =>
    if scheme = place.scheme && (rest.takeWhile (isSlash true)).length < 2 then relative? place rest
    else parse? s
  | none => relative? place cs

end Url

end PoolWatch
