import JsonRpc.Program

/-!
The command line of the demonstration program.
-/

def main (args : List String) : IO UInt32 := do
  match JsonRpc.Program.Mode.ofArgs args with
  | .serve addr =>
    match JsonRpc.Program.serve addr with
    | .ok () => return 0
    | .error failure =>
      IO.eprintln failure.message
      return 1
  | .call addr =>
    match JsonRpc.Program.connect addr with
    | .ok () => return 0
    | .error failure =>
      IO.eprintln failure.message
      return 1
  | .both =>
    for line in JsonRpc.Program.conversation do
      IO.println line
    return 0
