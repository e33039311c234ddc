import Formulary.CommandLine.Arguments
import Formulary.CommandLine.Message
import Formulary.CommandLine.Parameters
import Formulary.Sharing.Store
import Formulary.Text.Typed

/-! # Sessions

A session takes lines. A line is a formula, which is evaluated with the bindings made so far, or a
command, which starts with a colon. Only a command that sets a name to a value, or unsets one, changes
the bindings. -/

namespace Formulary.CommandLine

/-- A line by what it asks for. -/
inductive Line where
  | blank
  | formula (text : String)
  | quit
  | help
  | bindings
  | set (name text : String)
  | unset (name : String)
  | cache (on : Bool)
  | cacheState
  /-- A command that is known, but not used as it has to be. -/
  | misused (usage : String)
  | unknown (line : String)
deriving DecidableEq, Repr

namespace Line

/-- The name of a command ends at the first space. -/
def ofCommand (line name rest : String) : Line :=
  match name with
  | ":quit" | ":q" => quit
  | ":help" | ":h" => help
  | ":vars" => bindings
  | ":set" =>
      match Text.cut? '=' rest with
      | none => misused ":set <name> = <expr>"
      | some (name, text) =>
          if (Text.trim name).isEmpty then misused ":set <name> = <expr>"
          else set (Text.trim name) (Text.trim text)
  | ":unset" => unset rest
  | ":cache" =>
      match rest with
      | "on" => cache true
      | "off" => cache false
      | "" => cacheState
      | _ => misused ":cache on|off"
  | _ => unknown line

def ofString (s : String) : Line :=
  let line := Text.trim (Text.typed s)
  match line.toList with
  | [] => blank
  | ':' :: _ =>
      let (name, rest) := (Text.cut? ' ' line).getD (line, "")
      ofCommand line name (Text.trim rest)
  | _ => formula line

end Line

/-- The bindings are in the order of their names, each once. -/
structure Session where
  mode : Mode
  bindings : List (String × Value) := []
  store : Store := {}

namespace Session

def helpText : List String :=
  [ "Commands:"
  , "  :help, :h              Show this help"
  , "  :quit, :q              Exit the REPL"
  , "  :set <name> = <expr>   Bind a parameter to the value of an expression"
  , "  :unset <name>          Remove a binding"
  , "  :vars                  Show current bindings"
  , "  :cache on|off          Turn the expression cache on or off" ]

/-- Binds a name, in its place in the order. -/
def bind (name : String) (v : Value) : List (String × Value) → List (String × Value)
  | [] => [(name, v)]
  | (n, w) :: rest =>
      if name < n then (name, v) :: (n, w) :: rest
      else if name = n then (name, v) :: rest
      else (n, w) :: bind name v rest

def start (mode : Mode) (parameters : List (String × Value)) : Session where
  mode
  bindings := parameters.foldl (fun bs (name, v) ↦ bind name v bs) []

/-- The formula of a text, with the bindings of the session; nobody else has its slot. -/
def formula (s : Session) (text : String) : Formula where
  source := .text text
  context := ⟨s.mode, [], [], s.bindings.map fun (name, v) ↦ (name, .value v)⟩
  slot := s.store.nextSlot

/-- Evaluates a text. Its slot is given up again, so that its tree is not kept. -/
def evaluate (s : Session) (text : String) : Except Failure Value × Session :=
  let o := (s.formula text).run .shared { s.store with nextSlot := s.store.nextSlot + 1 }
  (o.result, { s with store := s.store.release o.store })

def explain : Failure → List Message
  | .unreadable fault => Message.reports fault
  | f => [.error (Message.describe f)]

/-- What a line prints, and the session after it. -/
def step (s : Session) : Line → List Message × Session
  | .blank | .quit => ([], s)
  | .formula text =>
      match s.evaluate text with
      | (.ok v, s) => ([.result v.display], s)
      | (.error f, s) => (explain f, s)
  | .help => (helpText.map .result, s)
  | .bindings =>
      (match s.bindings with
      | [] => [.result "(no bindings)"]
      | bs => bs.map fun (name, v) ↦ .result s!"  {name} = {v.display}", s)
  | .set name text =>
      match s.evaluate text with
      | (.ok v, s) =>
          ([.result s!"{name} = {v.display}"], { s with bindings := bind name v s.bindings })
      | (.error f, s) => (explain f, s)
  | .unset name =>
      if s.bindings.any (·.1 == name) then
        ([], { s with bindings := s.bindings.filter (·.1 != name) })
      else ([.warning s!"'{name}' is not bound"], s)
  | .cache on => ([], { s with store := s.store.enable on })
  | .cacheState =>
      let state := if s.store.cache.enabled then "on" else "off"
      ([.result s!"cache is {state} ({s.store.liveCount} entries)"], s)
  | .misused usage => ([.warning s!"usage: {usage}"], s)
  | .unknown line => ([.warning s!"unknown command: {line}"], s)

/-- What a list of lines prints; lines after one that ends the session are not looked at. -/
def run (s : Session) : List Line → List Message
  | [] => []
  | .quit :: _ => []
  | line :: rest =>
      let (messages, s) := s.step line
      messages ++ s.run rest

end Session

end Formulary.CommandLine
