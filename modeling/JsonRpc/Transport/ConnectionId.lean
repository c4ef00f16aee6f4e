import JsonRpc.Text.Numeral

/-!
Names of live connections.
-/

namespace JsonRpc

structure ConnectionId where
  value : UInt64
  deriving DecidableEq

def ConnectionId.text (id : ConnectionId) : String :=
  "conn-" ++ Text.decimal id.value.toNat

end JsonRpc
