import RemoteScreen.Config.Client
import RemoteScreen.Config.Server

/-!
The command line, which writes out the configuration that a server or a client starts with.
-/

namespace RemoteScreen

inductive Command
  | serverDefaults
  | clientDefaults
deriving DecidableEq, Repr

namespace Command

def ofArguments? : List String → Option Command
  | ["server", "--gen-config"] => some serverDefaults
  | ["client", "--gen-config"] => some clientDefaults
  | _ => none

def output : Command → String
  | serverDefaults => ({} : ServerConfig).render
  | clientDefaults => ({} : ClientConfig).render

def usage : String :=
  "usage: server --gen-config | client --gen-config"

end Command

end RemoteScreen

def main (arguments : List String) : IO UInt32 := do
  match RemoteScreen.Command.ofArguments? arguments with
  | some command =>
    IO.println command.output
    return 0
  | none =>
    IO.eprintln RemoteScreen.Command.usage
    return 2
