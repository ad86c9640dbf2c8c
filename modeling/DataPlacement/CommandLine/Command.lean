import DataPlacement.CommandLine.Options
import DataPlacement.HostPage
import DataPlacement.Session.Message
import DataPlacement.Text.Basic

namespace DataPlacement.CommandLine

inductive Command where
  | run (scenario : String) (verbosity : Session.Verbosity)
  | dump (scenario : String) (page : HostPage) (file : Option String) (length : Option Nat)
  deriving DecidableEq

/-- What help is about. -/
inductive Topic where
  | program
  | run
  | dump
  | help
  deriving DecidableEq

/-- What the arguments ask for. -/
inductive Request where
  | perform (command : Command)
  | help (topic : Topic)
  | version
  | nothing
  | refused (cause : Refusal)
  deriving DecidableEq

/-- The scenario that is used if none is named. -/
def standardScenario : String := "scenarios/basic.toml"

/-- The name of a page among the arguments. -/
def pageArgument : HostPage → String
  | .log .configurations => "configs"
  | .log .statistics => "stats"
  | .log .events => "events"
  | .unitStatus => "ruh-status"

/-- The page with a name. -/
def page? (name : String) : Option HostPage := HostPage.all.find? (pageArgument · = name)

/-- The length that a text stands for. -/
def length? (text : String) : Option Nat := Text.number? text.toList

def helpOption : CommandOption := ⟨"help", some 'h', .help⟩

def scenarioOption : CommandOption := ⟨"scenario", some 's', .valued fun path => path ≠ ""⟩

def programOptions : List CommandOption := [helpOption, ⟨"version", some 'V', .version⟩]

def runOptions : List CommandOption :=
  [helpOption, scenarioOption, ⟨"verbose", some 'v', .flag⟩, ⟨"quiet", some 'q', .flag⟩]

def dumpOptions : List CommandOption :=
  [helpOption, scenarioOption, ⟨"log", some 'l', .valued fun name => (page? name).isSome⟩,
    ⟨"out", some 'o', .valued fun path => path ≠ ""⟩,
    ⟨"len", none, .valued fun text => (length? text).isSome⟩]

namespace Request

/-- The request behind options that were not read to their end. -/
def ofStop (topic : Topic) : Stop → Request
  | .help => help topic
  | .version => version
  | .refused cause => refused cause

/-- The command `run`. It cannot be both verbose and quiet. -/
def ofRun (arguments : List String) : Request :=
  match readOptions runOptions arguments with
  | .error stop => ofStop .run stop
  | .ok given =>
    let scenario := (given.lookup "scenario").getD standardScenario
    match given.lookup "verbose", given.lookup "quiet" with
    | some _, some _ => refused (.conflict "verbose" "quiet")
    | some _, none => perform (.run scenario .verbose)
    | none, some _ => perform (.run scenario .quiet)
    | none, none => perform (.run scenario .normal)

/-- The command `dump`. -/
def ofDump (arguments : List String) : Request :=
  match readOptions dumpOptions arguments with
  | .error stop => ofStop .dump stop
  | .ok given =>
    perform (.dump ((given.lookup "scenario").getD standardScenario)
      (((given.lookup "log").bind page?).getD (.log .statistics))
      (given.lookup "out") ((given.lookup "len").bind length?))

/-- The command `help` with the names of a command. -/
def ofHelp : (names : List String) → Request
  | [] => help .program
  | ["run"] => help .run
  | ["dump"] => help .dump
  | ["help"] => help .help
  | names => refused (.unknownCommand (names.getLastD ""))

/-- The request that the arguments make. The first one names the command, unless it asks for
help or for the version. -/
def ofArguments : List String → Request
  | [] => nothing
  | "run" :: rest => ofRun rest
  | "dump" :: rest => ofDump rest
  | "help" :: rest => ofHelp rest
  | argument :: _ =>
    match Reading.take programOptions {} argument with
    | .error (.refused (.unexpected other)) =>
      refused (if other = argument then .unknownCommand other else .unexpected other)
    | .error stop => ofStop .program stop
    | .ok _ => nothing

end Request

end DataPlacement.CommandLine
