import ControlRig.CommandLine.Arguments
import ControlRig.Registry.Simulated

/-!
# What the daemon is started with

The words of the daemon's command line. Only the file of the parameters has to be named.
-/

namespace ControlRig.Daemon

open CommandLine

/-- Everything the command line says. -/
structure Invocation where
  /-- The file of the settings. -/
  config : Option String
  /-- The file of the parameters. -/
  params : String
  /-- The address to listen on. -/
  bind : String
  /-- The number at that address to listen on. -/
  portNumber : Nat
  registry : String
  deriving DecidableEq, Repr

namespace Invocation

/-- The number to listen on, unless told otherwise. -/
def standardPortNumber : Nat := 8420

/-- Whether a text is a number that can be listened on. -/
def isPortNumber (text : String) : Bool := (numberBelow? 0x10000 text).isSome

/-- The options of the daemon. -/
def options : List OptionSpec := [
  ⟨"config", none, .value (· ≠ "")⟩,
  ⟨"params", none, .value (· ≠ "")⟩,
  ⟨"port", none, .value isPortNumber⟩,
  ⟨"bind", none, .value fun _ => true⟩,
  ⟨"registry", none, .value fun _ => true⟩,
  ⟨"help", some 'h', .question⟩]

/-- Read the words of a command line. -/
def ofWords (words : List String) : Except Stop Invocation := do
  let (given, _) ← wordsBetween options [] words 0
  match given.value? "params" with
  | none => .error .usage
  | some params =>
    .ok {
      config := given.value? "config"
      params := params
      bind := (given.value? "bind").getD "127.0.0.1"
      portNumber := ((given.value? "port").bind (numberBelow? 0x10000)).getD standardPortNumber
      registry := (given.value? "registry").getD SimRegistry.name }

end Invocation

end ControlRig.Daemon
