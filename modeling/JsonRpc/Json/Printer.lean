import JsonRpc.Json.Basic
import JsonRpc.Json.Shortest
import JsonRpc.Text.Utf8

/-!
The compact text of a JSON value: no blanks, members in the order given, floats by the fewest
digits that read back.
-/

namespace JsonRpc.Json

def isPositional (leading : Int) : Bool :=
  -5 ≤ leading && leading < 16

def positional (ds : List Char) (exponent : Int) : List Char :=
  let point : Int := ds.length + exponent
  if 0 ≤ exponent then
    ds ++ List.replicate exponent.toNat '0' ++ ['.', '0']
  else if 0 < point then
    ds.take point.toNat ++ '.' :: ds.drop point.toNat
  else
    '0' :: '.' :: List.replicate (-point).toNat '0' ++ ds

def scientific (ds : List Char) (leading : Int) : List Char :=
  let fraction := match ds.tail with
    | [] => []
    | rest => '.' :: rest
  let sign := if leading < 0 then '-' else '+'
  ds.take 1 ++ fraction ++ 'e' :: sign :: Text.digits 10 leading.natAbs

def floatText (x : Binary64) : List Char :=
  let d := x.shortest
  let ds := Text.digits 10 d.coefficient
  let leading : Int := ds.length + d.exponent - 1
  let unsigned := if isPositional leading then positional ds d.exponent else scientific ds leading
  if x.negative then '-' :: unsigned else unsigned

def Number.text : Number → List Char
  | .integer n _ => (Text.decimalInt n).toList
  | .float x => floatText x

def escapeChar (c : Char) : List Char :=
  if c = '"' then ['\\', '"']
  else if c = '\\' then ['\\', '\\']
  else if c = '\x08' then ['\\', 'b']
  else if c = '\t' then ['\\', 't']
  else if c = '\n' then ['\\', 'n']
  else if c = '\x0c' then ['\\', 'f']
  else if c = '\r' then ['\\', 'r']
  else if c.toNat < 0x20 then
    ['\\', 'u', '0', '0', Text.digitChar (c.toNat / 16), Text.digitChar (c.toNat % 16)]
  else [c]

def stringText (s : String) : List Char :=
  '"' :: s.toList.flatMap escapeChar ++ ['"']

mutual

def chars : Json → List Char
  | .null => ['n', 'u', 'l', 'l']
  | .bool true => ['t', 'r', 'u', 'e']
  | .bool false => ['f', 'a', 'l', 's', 'e']
  | .number n => n.text
  | .string s => stringText s
  | .array [] => ['[', ']']
  | .array (item :: items) => '[' :: chars item ++ itemsChars items
  | .object [] => ['\x7b', '\x7d']
  | .object ((key, value) :: members) =>
    '\x7b' :: stringText key ++ ':' :: chars value ++ membersChars members

def itemsChars : List Json → List Char
  | [] => [']']
  | item :: items => ',' :: chars item ++ itemsChars items

def membersChars : List (String × Json) → List Char
  | [] => ['\x7d']
  | (key, value) :: members =>
    ',' :: stringText key ++ ':' :: chars value ++ membersChars members

end

def render (v : Json) : String :=
  String.ofList v.chars

def encode (v : Json) : Bytes :=
  v.chars.flatMap Text.Utf8.encodeChar

end JsonRpc.Json
