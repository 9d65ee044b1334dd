import Formula.CommandLine
import Formula.Text.Blank

/-! The arguments that a program is started with: a command, an expression, and options in any
order. -/

namespace Formula
namespace CommandLine

inductive Switch
  | values
  | pretty
  | name
  | ignoreVariables
  | ignoreFunctions
deriving DecidableEq, Repr

namespace Switch

def long : Switch → String
  | values => "values"
  | pretty => "pretty"
  | name => "name"
  | ignoreVariables => "ignore-unknown-variables"
  | ignoreFunctions => "ignore-unknown-functions"

def short? : Switch → Option Char
  | values => some 'v'
  | pretty => some 'p'
  | name => some 'n'
  | ignoreVariables | ignoreFunctions => none

def takesText : Switch → Bool
  | values | name => true
  | pretty | ignoreVariables | ignoreFunctions => false

def isRepeatable : Switch → Bool
  | name => true
  | values | pretty | ignoreVariables | ignoreFunctions => false

end Switch

namespace Command

def ofWord? : String → Option Command
  | "eval" => some evaluate
  | "compile" => some compile
  | "lint" => some lint
  | "tokens" => some tokens
  | "parse" => some parse
  | _ => none

def switches : Command → List Switch
  | evaluate => [.values, .pretty]
  | compile | parse => [.name]
  | lint => [.name, .ignoreVariables, .ignoreFunctions]
  | tokens => []

end Command

/-- What an argument says. An option that takes no text comes with none. -/
inductive Argument
  | operand (text : String)
  | option (switch : Switch) (text : String)
deriving DecidableEq, Repr

namespace Argument

/-- An option by its long name, with its text behind an equals sign or in the next argument. The
second result is the option that still awaits its text. -/
def readLong (switches : List Switch) (cs : List Char) :
    Option (List Argument × Option Switch) := do
  let (name, text) := cs.span (· != '=')
  let switch ← switches.find? (·.long == String.ofList name)
  match switch.takesText, text with
  | true, [] => some ([], some switch)
  | true, _ :: text => some ([.option switch (String.ofList text)], none)
  | false, [] => some ([.option switch ""], none)
  | false, _ :: _ => none

/-- Options by their letters. One that takes a text has what follows for it, if anything does. -/
def readShort (switches : List Switch) : List Char → Option (List Argument × Option Switch)
  | [] => some ([], none)
  | c :: cs => do
    let switch ← switches.find? (·.short? == some c)
    if switch.takesText then match cs with
      | [] => some ([], some switch)
      | '=' :: text => some ([.option switch (String.ofList text)], none)
      | text => some ([.option switch (String.ofList text)], none)
    else do
      let (options, awaiting) ← readShort switches cs
      return (.option switch "" :: options, awaiting)

/-- A dash alone is no option. -/
def readWord (switches : List Switch) (word : String) : Option (List Argument × Option Switch) :=
  match word.toList with
  | '-' :: '-' :: cs => readLong switches cs
  | '-' :: c :: cs => readShort switches (c :: cs)
  | _ => some ([.operand word], none)

/-- Two dashes alone end the options. The text of an option does not look like an option. -/
def readAll (switches : List Switch) : Option Switch → List String → Option (List Argument)
  | none, [] => some []
  | some _, [] => none
  | some switch, word :: words =>
    if word.toList.head? == some '-' && word != "-" then none
    else (readAll switches none words).map (.option switch word :: ·)
  | none, word :: words =>
    if word == "--" then some (words.map .operand)
    else do
      let (arguments, awaiting) ← readWord switches word
      return arguments ++ (← readAll switches awaiting words)

end Argument

/-- A request whose values may still have to be read. -/
structure Invocation where
  request : Request
  pretty : Bool := false

namespace Invocation

def operands (arguments : List Argument) : List String :=
  arguments.filterMap fun
    | .operand text => some text
    | .option _ _ => none

def textsOf (switch : Switch) (arguments : List Argument) : List String :=
  arguments.filterMap fun
    | .operand _ => none
    | .option s text => if s = switch then some text else none

/-- One expression, and no option twice but one that may be repeated. -/
def ofArguments? (command : Command) (arguments : List Argument) : Option Invocation :=
  let has (switch : Switch) := !(textsOf switch arguments).isEmpty
  match operands arguments with
  | [expression] =>
    if command.switches.all fun s => s.isRepeatable || (textsOf s arguments).length ≤ 1 then
      some {
        request := {
          command, expression
          names := textsOf .name arguments
          values := (textsOf .values arguments).head?
          leniency := ⟨has .ignoreVariables, has .ignoreFunctions⟩ }
        pretty := has .pretty }
    else none
  | _ => none

/-- The invocation that the words mean, if they mean any. -/
def ofWords? : List String → Option Invocation
  | [] => none
  | word :: words => do
    let command ← Command.ofWord? word
    ofArguments? command (← Argument.readAll command.switches none words)

/-- Values that are not among the arguments are read from the program's input. -/
def readsInput (i : Invocation) : Bool :=
  i.request.command = .evaluate && i.request.values.isNone

/-- A blank input gives no values. -/
def withInput (i : Invocation) (input : String) : Invocation :=
  if i.readsInput && !input.toList.all Text.isBlank then
    { i with request := { i.request with values := some input } }
  else i

def display (i : Invocation) : Answer → String
  | .valid => "Syntax is valid"
  | .source text => text
  | .value j => if i.pretty then j.indented else j.compact

/-- What the program prints. -/
def run (i : Invocation) (input : String) : Except CommandError String :=
  ((i.withInput input).request.execute).map i.display

end Invocation
end CommandLine
end Formula
