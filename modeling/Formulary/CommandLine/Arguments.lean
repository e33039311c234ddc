import Formulary.Options

/-! # Arguments

The arguments of the program name a command, with switches before and after its name. They are taken
one after the other, and the first that does not fit makes the whole refused; a request for help or
for the version is answered as soon as it is met. -/

namespace Formulary.CommandLine

/-- How formulas are evaluated, and the bindings that they start with, each written `name=value`. -/
structure Flags where
  parameters : List String := []
  mode : Mode := {}
deriving DecidableEq, Repr

inductive Command where
  | eval (text : String) (flags : Flags)
  | check (text : String)
  | repl (flags : Flags)
deriving DecidableEq, Repr

structure Invocation where
  command : Command
  verbose : Bool := false
  quiet : Bool := false
deriving DecidableEq, Repr

/-- What the arguments ask for. -/
inductive Request where
  | run (invocation : Invocation)
  | help
  | version
  | refused
deriving DecidableEq, Repr

/-! ## Single arguments -/

/-- An argument by its shape. A single hyphen and the empty text are plain. -/
inductive Argument where
  /-- Two hyphens: all that follow are plain. -/
  | escape
  | long (name : String) (value : Option String)
  | short (letters : List Char)
  | plain (text : String)
deriving DecidableEq, Repr

def Argument.ofString (s : String) : Argument :=
  match s.toList with
  | ['-', '-'] => .escape
  | '-' :: '-' :: cs =>
      match cs.dropWhile (· ≠ '=') with
      | [] => .long (String.ofList cs) none
      | _ :: value =>
          .long (String.ofList (cs.takeWhile (· ≠ '='))) (some (String.ofList value))
  | '-' :: c :: cs => .short (c :: cs)
  | _ => .plain s

inductive Verb where
  | eval
  | check
  | repl
deriving DecidableEq, Repr

def Verb.ofString? : String → Option Verb
  | "eval" => some eval
  | "check" => some check
  | "repl" => some repl
  | _ => none

/-- Whether the command evaluates and so has the flags for that. -/
def Verb.evaluates : Verb → Bool
  | eval | repl => true
  | check => false

/-- Switches have no value and are given at most once. -/
inductive Switch where
  | verbose
  | quiet
  | ignoreCase
  | noCache
  | roundAway
  | floatPreference
  | iterate
deriving DecidableEq, Repr

/-- What an option stands for. -/
inductive Mark where
  | switch (s : Switch)
  | parameter
  | help
  | version
deriving DecidableEq, Repr

/-- Whether an option belongs where it stands: before a command, or after one. -/
def Mark.isKnown (verb : Option Verb) : Mark → Bool
  | switch .verbose | switch .quiet | help => true
  | version => verb.isNone
  | switch _ | parameter => verb.any Verb.evaluates

def Mark.ofName? : String → Option Mark
  | "verbose" => some (switch .verbose)
  | "quiet" => some (switch .quiet)
  | "help" => some help
  | "version" => some version
  | "param" => some parameter
  | "ignore-case" => some (switch .ignoreCase)
  | "no-cache" => some (switch .noCache)
  | "round-away" => some (switch .roundAway)
  | "float-preference" => some (switch .floatPreference)
  | "iterate" => some (switch .iterate)
  | _ => none

def Mark.ofLetter? : Char → Option Mark
  | 'v' => some (switch .verbose)
  | 'q' => some (switch .quiet)
  | 'h' => some help
  | 'V' => some version
  | 'p' => some parameter
  | _ => none

/-! ## Lists of arguments -/

/-- What has been taken in so far. -/
structure Reading where
  /-- The switches before the command. -/
  outer : List Switch := []
  verb : Option Verb := none
  /-- The switches at the level that is being read. -/
  given : List Switch := []
  parameters : List String := []
  text : Option String := none
  /-- Whether the next argument has to be a value. -/
  awaiting : Bool := false

namespace Reading

/-- An option without a value of its own. -/
def mark (r : Reading) : Mark → Except Request Reading
  | .help => throw .help
  | .version => throw .version
  | .parameter => return { r with awaiting := true }
  | .switch s => if r.given.contains s then throw .refused else return { r with given := s :: r.given }

def addParameter (r : Reading) (value : String) : Reading :=
  { r with parameters := r.parameters ++ [value], awaiting := false }

def long (r : Reading) (name : String) (value : Option String) : Except Request Reading :=
  match (Mark.ofName? name).filter (Mark.isKnown r.verb), value with
  | some .parameter, some value => return r.addParameter value
  | some m, none => r.mark m
  | _, _ => throw .refused

/-- Options of one letter. What follows the letter of an option with a value is the value, with or
without a sign of equality. -/
def short (r : Reading) : List Char → Except Request Reading
  | [] => return r
  | c :: cs =>
      match (Mark.ofLetter? c).filter (Mark.isKnown r.verb), cs with
      | none, _ => throw .refused
      | some .parameter, '=' :: value => return r.addParameter (String.ofList value)
      | some .parameter, d :: value => return r.addParameter (String.ofList (d :: value))
      | some m, cs => do (← r.mark m).short cs

def plain (r : Reading) (s : String) : Except Request Reading :=
  match r.verb, r.text with
  | none, _ =>
      match Verb.ofString? s with
      | some verb => return { r with outer := r.given, verb := some verb, given := [] }
      | none => throw .refused
  | some .repl, _ | some _, some _ => throw .refused
  | some _, none => return { r with text := some s }

/-- Help on the program itself, or on a command. -/
def help : List String → Request
  | [] => .help
  | [s] => if s = "help" ∨ (Verb.ofString? s).isSome then .help else .refused
  | _ => .refused

def takeAll (r : Reading) : List String → Except Request Reading
  | [] => return r
  | s :: rest =>
      match r.awaiting, r.verb, Argument.ofString s with
      | true, _, .plain value => (r.addParameter value).takeAll rest
      | true, _, _ => throw .refused
      | false, none, .escape => throw .refused
      | false, some _, .escape => rest.foldlM plain r
      | false, none, .plain "help" => throw (help rest)
      | false, _, .plain s => do (← r.plain s).takeAll rest
      | false, _, .long name value => do (← r.long name value).takeAll rest
      | false, _, .short letters => do (← r.short letters).takeAll rest

def flags (r : Reading) : Flags where
  parameters := r.parameters
  mode :=
    { options :=
        { noCache := r.given.contains .noCache
          ignoreCase := r.given.contains .ignoreCase
          iterate := r.given.contains .iterate
          roundAway := r.given.contains .roundAway }
      preference := if r.given.contains .floatPreference then .floating else .decimal }

/-- The request, once all arguments are taken in: a command with all that it needs. -/
def request (r : Reading) : Request :=
  let run (command : Command) : Request :=
    .run ⟨command, (r.outer ++ r.given).contains .verbose, (r.outer ++ r.given).contains .quiet⟩
  match r.awaiting, r.verb, r.text with
  | false, some .eval, some text => run (.eval text r.flags)
  | false, some .check, some text => run (.check text)
  | false, some .repl, _ => run (.repl r.flags)
  | _, _, _ => .refused

end Reading

def Request.ofArguments (args : List String) : Request :=
  match Reading.takeAll {} args with
  | .ok r => r.request
  | .error request => request

end Formulary.CommandLine
