import FreeBody.Sheet.Command

/-!
# The command line

Reads the sheet that a command names, and carries out the effect of the command.
-/

namespace FreeBody.Sheet

/-- Reports that give the message alone. -/
def Reports.plain : Reports where
  error e := ["  " ++ e.message]
  message text := ["  x " ++ text, ""]

/-- Prints the lines of an effect; the exit code says whether it is a success. -/
def Effect.print (e : Effect) : IO UInt32 := do
  for l in e.output do
    IO.println l
  for l in e.errors do
    IO.eprintln l
  pure (if e.success then 0 else 1)

/-- Carries out an effect. -/
def Effect.perform (e : Effect) : IO UInt32 := do
  try
    for directory in e.directories do
      unless directory.isEmpty do
        IO.FS.createDirAll directory
    for (path, content) in e.files do
      IO.FS.writeFile path content
    e.print
  catch problem =>
    (Effect.stopped .plain ("writing: " ++ toString problem)).print

/-- The content of the sheet of a command, if it can be read. -/
def Command.source? (c : Command) : IO (Option String) := do
  try
    let source ← IO.FS.readFile c.sheet
    pure (some source)
  catch _ =>
    pure none

end FreeBody.Sheet

/-- Runs a command line. -/
def main (args : List String) : IO UInt32 := do
  match FreeBody.Sheet.command? args with
  | none => FreeBody.Sheet.usage.print
  | some command =>
    match ← command.source? with
    | some source => (command.run .plain source).perform
    | none => (FreeBody.Sheet.Effect.missing .plain command.sheet).print
