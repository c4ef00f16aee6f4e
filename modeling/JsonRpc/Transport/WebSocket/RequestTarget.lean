/-!
What a request asks for, in one of four forms: a path on the server that is asked, a whole address,
a place alone, or the server as such.
-/

namespace JsonRpc.WebSocket

inductive RequestTarget where
  | origin (path : List Char)
  | absolute (scheme authority path : List Char)
  | authority (authority : List Char)
  | asterisk
  deriving DecidableEq

namespace RequestTarget

def isSchemeChar (c : Char) : Bool :=
  c.isAlphanum || "+-.~".toList.contains c

def maxScheme : Nat := 64

def isPathChar (c : Char) : Bool :=
  '\x21' ≤ c && !"#<>?\x60".toList.contains c

def isQueryChar (c : Char) : Bool :=
  '\x21' ≤ c && !"\"#<>".toList.contains c

def isFragment : List Char → Bool
  | [] => true
  | c :: _ => c = '#'

def isPathAndQuery (cs : List Char) : Bool :=
  match cs.dropWhile isPathChar with
  | '?' :: query => isFragment (query.dropWhile isQueryChar)
  | rest => isFragment rest

def isPlain (c : Char) : Bool :=
  c.isAlphanum || "-._~!$&'()*+,;=".toList.contains c

structure AuthorityScan where
  /-- Colons since the last `]` or `@`. -/
  colons : Nat := 0
  /-- An escape since the last `]` or `@`. -/
  escaped : Bool := false
  opened : Bool := false
  closed : Bool := false

def maxColons : Nat := 8

def AuthorityScan.step? (s : AuthorityScan) : Char → Option AuthorityScan
  | ':' => if s.colons < maxColons then some { s with colons := s.colons + 1 } else none
  | '[' => if s.escaped || s.opened then none else some { s with opened := true }
  | ']' =>
    if s.opened && !s.closed then some { s with closed := true, colons := 0, escaped := false }
    else none
  | '@' => some { s with colons := 0, escaped := false }
  | '%' => some { s with escaped := true }
  | c => if isPlain c then some s else none

/--
A host with a user before it and a service behind it, or without. Escapes stand only in the user
and between brackets, and brackets come in one pair.
-/
def isAuthority (cs : List Char) : Bool :=
  match cs.foldlM AuthorityScan.step? {} with
  | some s => s.opened = s.closed && s.colons ≤ 1 && !s.escaped && cs.getLast? ≠ some '@'
  | none => false

def endsAuthority (c : Char) : Bool :=
  "/?#".toList.contains c

def parse? : List Char → Option RequestTarget
  | [] => none
  | ['*'] => some .asterisk
  | '/' :: path => if isPathAndQuery path then some (.origin ('/' :: path)) else none
  | cs =>
    match cs.dropWhile isSchemeChar with
    | ':' :: '/' :: '/' :: rest =>
      let scheme := cs.takeWhile isSchemeChar
      let authority := rest.takeWhile fun c => !endsAuthority c
      let path := rest.dropWhile fun c => !endsAuthority c
      if scheme.length ≤ maxScheme && !authority.isEmpty && isAuthority authority &&
          isPathAndQuery path then
        some (.absolute scheme authority path)
      else none
    | _ => if isAuthority cs then some (.authority cs) else none

end RequestTarget

end JsonRpc.WebSocket
