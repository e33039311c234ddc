import Formulary.CommandLine.Session

/-! # The command line

What the program prints for its arguments and its input, and the code that it exits with: zero if all
went well, one if a command failed, two if the arguments were refused. -/

namespace Formulary.CommandLine

def name : String := "reckon"

def version : String := "0.3.0"

def title : String := s!"{name} {version}"

/-- All that a run of the program comes to. -/
structure Run where
  exit : Nat := 0
  messages : List Message
deriving DecidableEq, Repr

namespace Run

/-- A command that failed, after what it has printed so far. A quiet one does not say why. -/
def failed (quiet : Bool) (messages : List Message) (reason : String) : Run :=
  ⟨1, messages ++ if quiet then [] else [.error reason]⟩

/-- What is printed on a stream. -/
def printed (r : Run) (stream : Stream) : String :=
  String.join <| (r.messages.filter (·.stream == stream)).map fun m ↦ m.render ++ "\n"

end Run

/-- The tree of a text, shown to those who want to know. -/
def treeInfo (verbose : Bool) (text : String) : List Message :=
  match verbose, readFormula text with
  | true, .ok e => [.info s!"tree: {e.toSource}"]
  | _, _ => []

def unreadable (quiet : Bool) (messages : List Message) (fault : SyntaxFault) : Run :=
  .failed quiet (messages ++ Message.reports fault)
    s!"{fault.diagnostics.length} syntax error(s) found"

def check (text : String) (verbose quiet : Bool) : Run :=
  match readFormula text with
  | .ok _ => ⟨0, treeInfo verbose text ++ [.success "OK - No errors found"]⟩
  | .error fault => unreadable quiet [] fault

def eval (text : String) (flags : Flags) (verbose quiet : Bool) : Run :=
  match readParameters flags.parameters with
  | .error fault => .failed quiet [] fault.message
  | .ok parameters =>
      let bindings := parameters.map fun (name, v) ↦ (name, Binding.value v)
      let f : Formula := ⟨.text text, ⟨flags.mode, [], [], bindings⟩, 0⟩
      let info := treeInfo verbose text
      match (f.run .direct ()).result with
      | .ok v => ⟨0, info ++ [.result v.display]⟩
      | .error (.unreadable fault) => unreadable quiet info fault
      | .error failure => .failed quiet info (Message.describe failure)

def greeting : List Message :=
  [.result s!"Reckon REPL v{version}", .result "Type :help for help, :quit to exit", .result ""]

def farewell : List Message := [.result "Goodbye!"]

def usage : List String :=
  [ s!"Usage: {name} [OPTIONS] <COMMAND>"
  , ""
  , "Commands:"
  , "  eval <EXPR>   Evaluate an expression"
  , "  check <EXPR>  Check an expression for syntax errors"
  , "  repl          Start an interactive session" ]

/-- How a run begins: it is over before any input is read, or it goes on as a session, for which the
greeting is still to be printed. -/
inductive Beginning where
  | over (run : Run)
  | session (s : Session)

/-- The greeting comes before the parameters are looked at. -/
def repl (flags : Flags) (quiet : Bool) : Beginning :=
  match readParameters flags.parameters with
  | .error fault => .over (.failed quiet greeting fault.message)
  | .ok parameters => .session (Session.start flags.mode parameters)

def Invocation.start (i : Invocation) : Beginning :=
  match i.command with
  | .eval text flags => .over (eval text flags i.verbose i.quiet)
  | .check text => .over (check text i.verbose i.quiet)
  | .repl flags => repl flags i.quiet

def Request.start : Request → Beginning
  | .run i => i.start
  | .help => .over ⟨0, usage.map .result⟩
  | .version => .over ⟨0, [.result title]⟩
  | .refused => .over ⟨2, usage.map .hint⟩

/-- What the program does, given its arguments and all of its input. -/
def run (arguments : List String) (input : String) : Run :=
  match (Request.ofArguments arguments).start with
  | .over run => run
  | .session s => ⟨0, greeting ++ s.run ((input.splitOn "\n").map Line.ofString) ++ farewell⟩

end Formulary.CommandLine
