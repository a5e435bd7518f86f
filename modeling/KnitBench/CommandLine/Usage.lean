import KnitBench.CommandLine.Options

/-! What the command line says about itself. -/

namespace KnitBench.CommandLine

/-- How to use the program. -/
def usage : String :=
  "Usage: ayab-sim <command> [options]

Commands:
  test                 Knit a test pattern against the reference firmware
  replay <script>      Feed carriage events from a script and show the result

Options:
  --machine <KH910|KH930|KH270>   Machine family (default: KH910)
  --carriage <K|L|G>              Carriage family (default: K)
  --beltphase <Regular|Shifted>   Belt phase (default: Regular)
  --startside <Left|Right>        Side the carriage starts from (default: Left)
  --start <needle>                First pattern needle (default: 0)
  --stop <needle>                 Last pattern needle (default: last needle)
  --pattern <|.>                  Pattern sent to the firmware (test only)
  --expect <|.>                   Expected knitted needles (test only)
  --trace                         Log decoded protocol frames
  -v                              Raise log verbosity (repeatable)
  -h, --help                      Show this help message

Exit status: 0 pass, 1 failed test or bad arguments, 2 firmware protocol fault.

Examples:
  ayab-sim test --machine KH930 --carriage K --pattern '|.'
  ayab-sim replay sweep.txt --startside Right
"

/-- The wording of each offence. -/
def UsageError.message : UsageError → String
  | missingCommand => "missing command"
  | unknownCommand w => s!"unknown command: {w}"
  | missingValue option => s!"missing value for {option}"
  | invalidValue option e => s!"{option}: {e.message}"
  | unknownOption w => s!"unknown option: {w}"
  | unexpectedArgument w => s!"unexpected argument: {w}"
  | severalScripts => "multiple script paths provided"
  | missingScript => "missing script path"
  | helpAmongOptions => usage

end KnitBench.CommandLine
