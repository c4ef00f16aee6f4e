import JsonRpc.Transport.Fault

/-!
Socket addresses: a host, a colon and the number of a service.
-/

namespace JsonRpc

structure Address where
  host : String
  service : UInt16

inductive AddressFault where
  | noService
  | badService
  deriving DecidableEq

def AddressFault.message : AddressFault → String
  | .noService => "invalid socket address"
  | .badService => "invalid port value"

def AddressFault.toIoFault (f : AddressFault) : IoFault :=
  ⟨.other, f.message⟩

namespace Address

def parse (s : String) : Except AddressFault Address :=
  let reversed := s.toList.reverse
  match reversed.dropWhile (· ≠ ':') with
  | [] => .error .noService
  | _ :: host =>
    match Text.ofUnsigned? 65536 (reversed.takeWhile (· ≠ ':')).reverse with
    | none => .error .badService
    | some service => .ok ⟨String.ofList host.reverse, UInt16.ofNat service⟩

def toConnect (s : String) : Except TransportError Address :=
  (parse s).mapError fun f => .connectFailed f.toIoFault

def toBind (s : String) : Except IoFault Address :=
  (parse s).mapError AddressFault.toIoFault

end Address

end JsonRpc
