import ControlRig.CommandLine.Arguments
import ControlRig.Strictness

/-!
# What the client is asked to do

The words of the client's command line: options for every order, then the order, then the options
and the words of the order itself. The options for every order may also follow the order; where one
is given in both places the later place counts.
-/

namespace ControlRig.Client

open CommandLine

/-- What the client is to have the daemon do. -/
inductive Order where
  | start (name : String) (strictness : Strictness)
  | stop (strictness : Strictness)
  | list
  | update
  | status
  deriving DecidableEq, Repr

/-- Everything the command line says. -/
structure Invocation where
  url : String
  /-- How many seconds the daemon has to answer. -/
  timeoutSecs : Nat
  json : Bool
  verbose : Bool
  order : Order
  deriving DecidableEq, Repr

namespace Invocation

/-- Whether a text is a number of seconds. -/
def isSeconds (text : String) : Bool := (numberBelow? 0x10000000000000000 text).isSome

/-- The options for every order. -/
def commonOptions : List OptionSpec := [
  ⟨"url", none, .value fun _ => true⟩,
  ⟨"timeout", none, .value isSeconds⟩,
  ⟨"json", none, .flag⟩,
  ⟨"verbose", some 'v', .flag⟩,
  ⟨"help", some 'h', .question⟩]

/-- The options before the order. -/
def firstOptions : List OptionSpec := commonOptions ++ [⟨"version", some 'V', .question⟩]

/-- The option of the orders that can be strict. -/
def strictOption : OptionSpec := ⟨"strict", none, .flag⟩

/-- The strictness that the options ask for. -/
def strictnessOf (given : Given) : Strictness :=
  if given.has "strict" then .strict else .bestEffort

/-- Read the words after the word for an order. -/
def readOrder (word : String) (words : List String) : Except Stop (Order × Given) :=
  match word with
  | "start" => do
    match ← wordsBetween (strictOption :: commonOptions) [] words 1 with
    | (given, [name]) => .ok (.start name (strictnessOf given), given)
    | _ => .error .usage
  | "stop" => do
    let (given, _) ← wordsBetween (strictOption :: commonOptions) [] words 0
    .ok (.stop (strictnessOf given), given)
  | "list" => do
    let (given, _) ← wordsBetween commonOptions [] words 0
    .ok (.list, given)
  | "update" => do
    let (given, _) ← wordsBetween commonOptions [] words 0
    .ok (.update, given)
  | "status" => do
    let (given, _) ← wordsBetween commonOptions [] words 0
    .ok (.status, given)
  | "help" => .error (.question "help")
  | _ => .error .usage

/-- Read the words of a command line. -/
def ofWords (words : List String) : Except Stop Invocation := do
  match ← options firstOptions [] words with
  | (before, false, word :: rest) =>
    let (order, after) ← readOrder word rest
    let given := after ++ before
    .ok {
      url := (given.value? "url").getD "http://127.0.0.1:8420"
      timeoutSecs := ((given.value? "timeout").bind (numberBelow? 0x10000000000000000)).getD 60
      json := given.has "json"
      verbose := given.has "verbose"
      order := order }
  | _ => .error .usage

end Invocation

end ControlRig.Client
