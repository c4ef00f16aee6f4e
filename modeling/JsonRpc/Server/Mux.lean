import JsonRpc.Server.Handler

/-!
Handlers chosen by method name.
-/

namespace JsonRpc.Server

structure Mux where
  routes : List (String × Handler) := []

namespace Mux

def empty : Mux :=
  {}

def insert (m : Mux) (method : String) (handler : Handler) : Mux :=
  { routes := Keyed.insert method handler m.routes }

def contains (m : Mux) (method : String) : Bool :=
  (Keyed.find? method m.routes).isSome

def methods (m : Mux) : List String :=
  m.routes.map (·.1)

def ofList (routes : List (String × Handler)) : Mux :=
  { routes := Keyed.ofList routes }

def handler (m : Mux) : Handler := fun request =>
  match Keyed.find? request.method m.routes with
  | some handler => handler request
  | none => .now (.failure (.methodNotFound request.method))

end Mux

end JsonRpc.Server
