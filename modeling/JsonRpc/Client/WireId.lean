import JsonRpc.Text.Numeral

/-!
The identifiers of a client's calls on the wire: signed hexadecimal numerals.
-/

namespace JsonRpc.WireId

def format (id : Int64) : String :=
  let n := id.toInt
  String.ofList (if n < 0 then '-' :: Text.digits 16 n.natAbs else Text.digits 16 n.natAbs)

def parse? (s : String) : Option Int64 :=
  match s.toList with
  | [] => none
  | '+' :: _ => none
  | cs => Text.ofSigned64? 16 cs

end JsonRpc.WireId
