import Formulary.CommandLine

/-! # The program -/

namespace Formulary.CommandLine

def Message.print (m : Message) : IO Unit :=
  match m.stream with
  | .output => IO.println m.render
  | .error => IO.eprintln m.render

/-- Reads lines until one ends the session or there are no more, and answers each as it comes. -/
partial def Session.converse (s : Session) : IO Unit := do
  let text ← (← IO.getStdin).getLine
  match Line.ofString text with
  | .quit => return
  | line =>
      if text.isEmpty then return
      let (messages, s) := s.step line
      messages.forM Message.print
      s.converse

end Formulary.CommandLine

open Formulary.CommandLine

/-- Prints what the arguments ask for. The input is read only by a session. -/
def main (arguments : List String) : IO UInt32 := do
  match (Request.ofArguments arguments).start with
  | .over run =>
      run.messages.forM Message.print
      return run.exit.toUInt32
  | .session s =>
      greeting.forM Message.print
      s.converse
      farewell.forM Message.print
      return 0
