import DataPlacement.CommandLine.Command

namespace DataPlacement.CommandLine

/-- The name of the program and its version. -/
def versionText : String := "fdpctl 0.5.1\n"

def programHelp : String :=
"FDP reclaim unit emulator driver

Usage: fdpctl <COMMAND>

Commands:
  run   Run a scenario and print the reclaim unit table
  dump  Run a scenario, then fetch one FDP page from the device
  help  Print this message or the help of the given subcommand(s)

Options:
  -h, --help     Print help
  -V, --version  Print version
"

def runHelp : String :=
"Run a scenario and print the reclaim unit table

Usage: fdpctl run [OPTIONS]

Options:
  -s, --scenario <SCENARIO>  Scenario path [default: scenarios/basic.toml]
  -v, --verbose              Print every step and device trace
  -q, --quiet                Only print warnings and the final table
  -h, --help                 Print help
"

def dumpHelp : String :=
"Run a scenario, then fetch one FDP page from the device

Usage: fdpctl dump [OPTIONS]

Options:
  -s, --scenario <SCENARIO>  Scenario path [default: scenarios/basic.toml]
  -l, --log <LOG>            Page to fetch [default: stats] [possible values: configs, stats, events, ruh-status]
  -o, --out <OUT>            Output file; hex dump to stdout when omitted
      --len <LEN>            Transfer length in bytes (defaults to the full page)
  -h, --help                 Print help
"

def helpHelp : String :=
"Print this message or the help of the given subcommand(s)

Usage: fdpctl help [COMMAND]...

Arguments:
  [COMMAND]...  Print help for the subcommand(s)
"

def Topic.text : Topic → String
  | program => programHelp
  | run => runHelp
  | dump => dumpHelp
  | help => helpHelp

end DataPlacement.CommandLine
