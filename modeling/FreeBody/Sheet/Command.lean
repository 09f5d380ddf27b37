import FreeBody.Diagram.Issue
import FreeBody.Sheet.Line

/-!
# Commands on sheets

`render` makes a picture file of every line, `gallery` one page with all pictures, and `check`
reports what is left out of a diagram or wrong with it.  A command is a function of the sheet;
its effects are the lines it prints and the files it writes.

How an error is laid out when it is reported in full is not decided here (`Reports`).
-/

namespace FreeBody.Sheet

/-- What a command does: the directories that it makes sure of, the files that it writes, by path
and content, and the lines that it prints. -/
structure Effect where
  success : Bool
  output : List String := []
  errors : List String := []
  directories : List String := []
  files : List (String × String) := []

/-- The lines of full reports: of an error in a text, and of a message that a command ends with. -/
structure Reports where
  error : CompactError → List String
  message : String → List String

/-- A command that ends early, with a report. -/
def Effect.stopped (reports : Reports) (message : String) : Effect where
  success := false
  errors := reports.message message

/-- A command whose sheet is not there. -/
def Effect.missing (reports : Reports) (sheet : String) : Effect :=
  .stopped reports ("reading " ++ sheet ++ ": No such file or directory (os error 2)")

/-! ## Pictures -/

/-- The path of the file `name` in a directory. -/
def pathIn (directory name : String) : String :=
  if directory.isEmpty || directory.endsWith "/" then directory ++ name
  else directory ++ "/" ++ name

/-- The picture file of a line, or why there is none. -/
def pictureFile (directory : String) (l : Line) : Except CompactError (String × String) :=
  l.picture.map fun picture => (pathIn directory (toString l.number ++ ".svg"), picture)

/-- Writes the picture of every line into a directory. -/
def render (sheet directory source : String) : Effect :=
  let drawn := lines source
  let files := drawn.filterMap fun l => (pictureFile directory l).toOption
  let failures := drawn.filterMap fun l =>
    match pictureFile directory l with
    | .ok _ => none
    | .error e => some (sheet ++ ":" ++ toString l.number ++ ": " ++ e.message)
  { success := failures.isEmpty
    errors := failures ++ [
      "rendered " ++ toString (drawn.length - failures.length) ++ " of " ++
        toString drawn.length ++ " diagrams into " ++ directory]
    directories := [directory]
    files }

/-! ## Galleries -/

/-- A text as it stands on a page. -/
def pageText (s : String) : String :=
  String.ofList
    (Text.replaceChar '>' "&gt;".toList
      (Text.replaceChar '<' "&lt;".toList (Text.replaceChar '&' "&amp;".toList s.toList)))

/-- What a card shows: a picture, or an error. -/
def cardBody (l : Line) : String :=
  match l.picture with
  | .ok picture => picture
  | .error e => "<pre class=\"error\">" ++ pageText e.message ++ "</pre>"

/-- The card of a line. -/
def card (l : Line) : String :=
  "<section class=\"card\">\n<h2>" ++ toString l.number ++ ": <code>" ++ pageText l.text ++
    "</code></h2>\n" ++ cardBody l ++ "\n</section>\n"

/-- The page up to the first card. -/
def pageHead : String :=
  "<!DOCTYPE html>\n<html>\n<head>\n<meta charset=\"UTF-8\">\n" ++
  "<title>fbdraw gallery</title>\n<style>\n" ++
  "body \x7b font-family: system-ui, sans-serif; background: #eee; margin: 24px; \x7d\n" ++
  ".card \x7b background: white; border-radius: 8px; padding: 12px 16px; " ++
  "margin-bottom: 16px; \x7d\n" ++
  ".card h2 \x7b font-size: 13px; font-weight: 600; \x7d\n" ++
  ".card svg \x7b max-width: 100%; height: auto; \x7d\n" ++
  ".error \x7b color: #991b1b; \x7d\n" ++
  "</style>\n</head>\n<body>\n"

/-- The page with the cards of all lines. -/
def page (drawn : List Line) : String :=
  pageHead ++ String.join (drawn.map card) ++ "</body>\n</html>\n"

/-- Writes the page of a sheet. -/
def gallery (file source : String) : Effect :=
  let drawn := lines source
  let failed := (drawn.filter fun l => l.diagram.toOption.isNone).length
  { success := failed == 0
    errors := [
      "wrote " ++ toString drawn.length ++ " diagrams to " ++ file ++ " (" ++ toString failed ++
        " failed)"]
    files := [(file, page drawn)] }

/-! ## Reports -/

/-- The error of a generator in a report. -/
def errorReport : GeneratorError → String
  | .invalidArgument index expected =>
    "InvalidArgument \x7b index: " ++ toString index ++ ", expected: " ++
      Text.quoted expected.text ++ " \x7d"
  | .failed reason => "Failed(" ++ Text.quoted reason ++ ")"
  | .panicked reason => "Panicked(" ++ Text.quoted reason ++ ")"

/-- The reason why an entry has no diagram, in a report. -/
def skipReport : SkipReason → String
  | .unknownPreset => "UnknownPreset"
  | .generator e => "Generator(" ++ errorReport e ++ ")"

/-- What a line is reported for. -/
inductive Finding
  | failure (e : CompactError)
  | skipped (entry : Skipped)
  | warning (w : Warning)
  | issue (i : Issue)

/-- The report of a finding, at a place in the sheet. -/
def Finding.report (reports : Reports) (place : String) : Finding → List String
  | failure e => (place ++ ":") :: reports.error e
  | skipped s => [
    place ++ ": entry " ++ toString s.index ++ " (" ++ s.preset ++ ") skipped: " ++
      skipReport s.reason]
  | warning w => [place ++ ": warning: " ++ w.message]
  | issue i => [place ++ ": " ++ i.message]

/-- What is found on a line. -/
def findings (l : Line) : List Finding :=
  if l.isCombination then
    match l.composed with
    | .ok c => c.skipped.map .skipped
    | .error e => [.failure e]
  else
    match l.parsed with
    | .ok p => p.warnings.map .warning ++ p.diagram.issues.map .issue
    | .error e => [.failure e]

/-- Reports what is found on all lines. -/
def check (reports : Reports) (sheet source : String) : Effect :=
  let drawn := lines source
  let clean := drawn.all fun l => (findings l).isEmpty
  let found := drawn.flatMap fun l =>
    (findings l).flatMap (Finding.report reports (sheet ++ ":" ++ toString l.number))
  { success := clean
    output :=
      if clean then found ++ [toString drawn.length ++ " notations ok"] else found }

/-! ## Command lines -/

/-- A command, with the sheet that it reads. -/
inductive Command
  | render (sheet directory : String)
  | gallery (sheet file : String)
  | check (sheet : String)

/-- The command that a command line asks for. -/
def command? : List String → Option Command
  | "render" :: sheet :: directory :: _ => some (.render sheet directory)
  | "gallery" :: sheet :: file :: _ => some (.gallery sheet file)
  | "check" :: sheet :: _ => some (.check sheet)
  | _ => none

/-- How to use the command line. -/
def usage : Effect where
  success := false
  errors := [
    "Usage: cargo xtask <command> <notation-file> [out]",
    "Commands:",
    "  render <file> <out-dir>    Write one SVG per notation line",
    "  gallery <file> <out.html>  Write every diagram into one HTML page",
    "  check <file>               Report warnings and validation problems"]

namespace Command

/-- The sheet that a command reads. -/
def sheet : Command → String
  | render sheet _ => sheet
  | gallery sheet _ => sheet
  | check sheet => sheet

/-- What a command does with the content of its sheet. -/
def run (reports : Reports) (source : String) : Command → Effect
  | render sheet directory => Sheet.render sheet directory source
  | gallery _ file => Sheet.gallery file source
  | check sheet => Sheet.check reports sheet source

end Command

end FreeBody.Sheet
