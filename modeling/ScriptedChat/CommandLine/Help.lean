import ScriptedChat.CommandLine.Parameter
import ScriptedChat.Text.Filling

/-!
# Pages of help

A page says what the program or one of its commands is for, how it is called, and what its commands and
parameters are. What an entry is about stands beside it, or, in a detailed page and where there is too
little room, below it.

* `programParameters`, `serveParameters`, `printParameters`: the parameters of the program.
* `Entry`, `Layout`, `Entry.render`: one entry of a page.
* `Page.text`: the text of a page.
-/

namespace ScriptedChat.CommandLine

/-! ## Parameters -/

/-- The parameters before the name of a command. -/
def programParameters : List Parameter :=
  [{ name := "log-level"
     domain := .oneOf
       [{ name := "error" }, { name := "warn" }, { name := "info" }, { name := "debug" },
        { name := "trace" }]
     about := "Log verbosity level (default: info)" },
   { name := "log-format"
     domain := .oneOf
       [{ name := "plaintext", about := "Human-readable plaintext format" },
        { name := "json", about := "Structured JSON format" }]
     about := "Log output format (default: plaintext)" },
   { name := "log-file", domain := .text, about := "Append logs to this file instead of stdout" }]

/-- The greatest number of 64 bits. -/
def maxWord : Nat := UInt64.size - 1

/-- The parameters of the command that serves. -/
def serveParameters : List Parameter :=
  [{ name := "config", domain := .path, about := "YAML or TOML configuration file" },
   { name := "host", domain := .text, about := "Address to bind" },
   { name := "port", domain := .number 65535, about := "Port to bind (0 picks a free port)" },
   { name := "words-per-chunk", domain := .number maxWord, about := "Words per streamed text fragment" },
   { name := "chunk-delay-ms", domain := .number maxWord
     about := "Delay between streamed frames in milliseconds" },
   { name := "openai-model", domain := .text
     about := "Model echoed by the OpenAI-style endpoint when the request names none" },
   { name := "anthropic-model", domain := .text
     about := "Model echoed by the Anthropic-style endpoint when the request names none" }]

/-- The parameters of the command that prints the settings. -/
def printParameters : List Parameter := [{ name := "config", domain := .path }]

/-! ## Entries -/

/-- One entry of a page: a command or a parameter. -/
structure Entry where
  label : String
  about : String
  choices : List Choice := []
  deriving DecidableEq, Repr

/-- How entries of a page are laid out. -/
inductive Layout where
  /-- what an entry is about begins at a column -/
  | beside (column : Nat)
  | below
  /-- below the entry, with a paragraph for what the choices mean -/
  | detailed
  deriving DecidableEq, Repr

/-- The width of a page. -/
def pageWidth : Nat := 100

/-- The column of what stands below an entry. -/
def belowColumn : Nat := 10

/-- So many spaces. -/
def spaces (n : Nat) : String := String.ofList (List.replicate n ' ')

/-- The choices of an entry in one line. -/
def choiceLine (choices : List Choice) : String :=
  if choices.isEmpty then ""
  else "[possible values: " ++ ", ".intercalate (choices.map Choice.name) ++ "]"

/-- The choices of an entry with what they mean, one on each line. -/
def choiceList (choices : List Choice) : String :=
  let width := ((choices.map (·.name.length)).max?).getD 0
  let line (choice : Choice) : String :=
    "\n" ++ spaces belowColumn ++ "- " ++ choice.name
      ++ (if choice.about = "" then ""
          else ": " ++ spaces (width - choice.name.length) ++ choice.about)
  "\n\n" ++ spaces belowColumn ++ "Possible values:" ++ String.join (choices.map line)

/-- Whether some choice of an entry needs an explanation. -/
def Entry.explainsChoices (entry : Entry) : Bool :=
  entry.choices.any fun choice => choice.about ≠ ""

/-- What an entry is about, with its choices, in one line. -/
def Entry.summary (entry : Entry) : String :=
  if entry.about = "" || entry.choices.isEmpty then entry.about ++ choiceLine entry.choices
  else entry.about ++ " " ++ choiceLine entry.choices

/-- A text that begins at a column and is continued there. -/
def column (start : Nat) (text : String) : String :=
  ("\n" ++ spaces start).intercalate (Text.fill (pageWidth - start) text)

/-- An entry of a page. -/
def Entry.render (layout : Layout) (entry : Entry) : String :=
  let below := "  " ++ entry.label ++ "\n" ++ spaces belowColumn
  match layout with
  | .beside start =>
    "  " ++ entry.label ++ spaces (start - (entry.label.length + 2)) ++ column start entry.summary
  | .below => below ++ column belowColumn entry.summary
  | .detailed =>
    let about := below ++ column belowColumn entry.about
    if entry.choices.isEmpty then about
    else if entry.explainsChoices then about ++ choiceList entry.choices
    else
      about ++ "\n" ++ spaces belowColumn ++ "\n" ++ spaces belowColumn
        ++ column belowColumn (choiceLine entry.choices)

/-- The layout of entries that are not explained in detail. Where the labels take more than two fifths of
the width and some entry does not fit beside them, all are explained below. -/
def layoutOf (entries : List Entry) : Layout :=
  let start := ((entries.map (·.label.length)).max?).getD 0 + 4
  if pageWidth * 2 < start * 5 && entries.any (pageWidth - start < ·.summary.length) then .below
  else .beside start

/-- Entries under a head. -/
def listing (head : String) (isDetailed : Bool) (entries : List Entry) : String :=
  let layout := if isDetailed then .detailed else layoutOf entries
  let gap := if isDetailed then "\n\n" else "\n"
  head ++ ":\n" ++ gap.intercalate (entries.map (Entry.render layout))

/-! ## Pages -/

/-- The name of a value in the entry of its parameter. -/
def valueName (name : String) : String :=
  String.ofList (name.toList.map fun c => if c = '-' then '_' else c.toUpper)

/-- The entry of a parameter. -/
def Parameter.entry (parameter : Parameter) : Entry where
  label := "    --" ++ parameter.name ++ " <" ++ valueName parameter.name ++ ">"
  about := parameter.about
  choices := match parameter.domain with
    | .oneOf choices => choices
    | _ => []

/-- The entry of the parameter that asks for help. -/
def helpEntry (about : String) : Entry where
  label := "-h, --help"
  about := about

/-- The name of the program. -/
def programName : String := "llm-api-sim"

/-- The text of a page: what it is about, how to call it, and its sections. -/
def pageText (about usage : String) (sections : List String) : String :=
  about ++ "\n\nUsage: " ++ programName ++ " " ++ usage ++ "\n\n" ++ "\n\n".intercalate sections
    ++ "\n"

/-- What the commands are for. -/
def commandEntries : List Entry :=
  [{ label := "serve", about := "Serve the simulated endpoints" },
   { label := "print-config", about := "Print the effective configuration as YAML" },
   { label := "help", about := "Print this message or the help of the given subcommand(s)" }]

/-- What a command is for. -/
def commandAbout (name : String) : String :=
  ((commandEntries.find? fun entry => entry.label = name).map Entry.about).getD ""

/-- The page of a command with parameters. -/
def commandPage (name : String) (parameters : List Parameter) : String :=
  pageText (commandAbout name) (name ++ " [OPTIONS]")
    [listing "Options" false (parameters.map Parameter.entry ++ [helpEntry "Print help"])]

/-- The text of a page. -/
def Page.text : Page → String
  | .program isDetailed =>
    let help := if isDetailed then "Print help (see a summary with '-h')"
      else "Print help (see more with '--help')"
    pageText "Deterministic OpenAI/Anthropic API simulator for client testing" "[OPTIONS] <COMMAND>"
      [listing "Commands" false commandEntries,
       listing "Options" isDetailed (programParameters.map Parameter.entry ++ [helpEntry help])]
  | .serve => commandPage "serve" serveParameters
  | .printConfig => commandPage "print-config" printParameters
  | .help =>
    pageText (commandAbout "help") "help [COMMAND]..."
      [listing "Arguments" false
        [{ label := "[COMMAND]...", about := "Print help for the subcommand(s)" }]]

end ScriptedChat.CommandLine
