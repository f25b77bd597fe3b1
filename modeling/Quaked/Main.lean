import Quaked.CommandLine

/-!
# The program

Takes its arguments apart, reads the file they name and carries out `CommandLine.run`.
-/

namespace Quaked
namespace CommandLine

/-- Arguments of the command line. -/
structure Arguments where
  file : Option String := none
  options : Options := {}
  verbose : Bool := false

/-- What stands behind an option's name and the equals sign. -/
def valueOf? (name argument : String) : Option String :=
  let start := (name ++ "=").toList
  if start.isPrefixOf argument.toList then
    some (String.ofList (argument.toList.drop start.length))
  else none

/-- Takes the first of some arguments, with the second one if it belongs to it. -/
def Arguments.read (a : Arguments) : List String → Option Arguments
  | [] => some a
  | "--verbose" :: rest | "-v" :: rest => { a with verbose := true }.read rest
  | "--format" :: value :: rest | "-f" :: value :: rest =>
    { a with options.format := some value }.read rest
  | "--default-color" :: value :: rest => { a with options.defaultColor := some value }.read rest
  | argument :: rest =>
    match valueOf? "--format" argument, valueOf? "--default-color" argument with
    | some value, _ => { a with options.format := some value }.read rest
    | _, some value => { a with options.defaultColor := some value }.read rest
    | none, none =>
      if a.file.isSome ∨ ['-'].isPrefixOf argument.toList then none
      else { a with file := some argument }.read rest

/-- The warnings of a file, one on a line. -/
def warningLines (warnings : List Warning) : String :=
  String.join (warnings.map fun w =>
    "WARN line " ++ toString w.position.line ++ ", column " ++ toString w.position.column ++ ": " ++
      w.notice.message ++ "\n")

end CommandLine
end Quaked

open Quaked CommandLine in
/-- Reads the file that the arguments name. -/
def main (arguments : List String) : IO UInt32 := do
  let usage := "usage: quaked [--format=summary|json] [--default-color=\"R G B\"] [--verbose] FILE"
  match ({} : Arguments).read arguments with
  | some { file := some path, options, .. } =>
    match options.plan? with
    | none =>
      IO.eprintln usage
      return 2
    | some plan =>
      match ← (IO.FS.readFile path).toBaseIO with
      | .error e =>
        IO.eprintln s!"Error: cannot read '{path}': {e}"
        return 1
      | .ok source =>
        let file := File.read plan.settings source
        IO.eprint (warningLines file.session.warnings)
        let result := plan.run source
        IO.print result.output
        if result.exitCode ≠ 0 then IO.eprintln (path ++ ": " ++ result.message)
        else if result.message ≠ "" then IO.eprintln result.message
        return result.exitCode.toUInt32
  | _ =>
    IO.eprintln usage
    return 2
