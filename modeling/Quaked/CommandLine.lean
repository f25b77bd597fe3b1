import Quaked.Definition.File
import Quaked.Report.Document
import Quaked.Report.Summary

/-!
# The command line

The program reads one definition file and writes what is in it, as a summary or as a report. What it
writes, says and exits with is a function of the file and the options.
-/

namespace Quaked
namespace CommandLine

/-- What is written of a file. -/
inductive Format where
  | summary
  | report
deriving DecidableEq, Repr

/-- The format of a name. -/
def Format.ofString? (name : String) : Option Format :=
  if name = "summary" then some .summary
  else if name = "json" then some .report
  else none

/-- Options as they are given. -/
structure Options where
  format : Option String := none
  defaultColor : Option String := none

/-- Options as they are meant. -/
structure Plan where
  format : Format
  settings : Settings

/-- The meaning of options, if they have one. -/
def Options.plan? (o : Options) : Option Plan := do
  let format ← match o.format with
    | none => some .summary
    | some name => Format.ofString? name
  let color ← match o.defaultColor with
    | none => some .gray
    | some text => Color.ofString? text
  return { format, settings := { defaultColor := color } }

/-- What the program leaves behind. -/
structure Result where
  exitCode : Nat
  /-- What is written. -/
  output : String
  /-- What is said, if anything. -/
  message : String
deriving DecidableEq, Repr

/-- Reads a file by a plan. -/
def Plan.run (plan : Plan) (source : String) : Result :=
  let file := File.read plan.settings source
  match file.result with
  | .error e => ⟨1, "", e.message⟩
  | .ok entities =>
    match plan.format with
    | .summary =>
      ⟨0, Summary.lines entities, Summary.closing entities.length file.session.warnings.length⟩
    | .report => ⟨0, Report.text entities, ""⟩

/-- Reads a file with options. Options without a meaning are refused before the file is read. -/
def run (options : Options) (source : String) : Result :=
  match options.plan? with
  | none => ⟨2, "", ""⟩
  | some plan => plan.run source

end CommandLine
end Quaked
