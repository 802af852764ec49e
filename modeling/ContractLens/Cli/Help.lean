import ContractLens.Cli.Invocation
/-!
# Explanations of the command line

Each part of the program is explained by its usage, what it is for, its operands and its options.
-/

namespace ContractLens.Cli

/-- Lines, each with its end. -/
def lines (ls : List String) : String := String.join (ls.map (· ++ "\n"))

/-- The names of the commands as a choice. -/
def commandChoice : String := "\x7b" ++ ",".intercalate commandNames ++ "\x7d"

/-- The names of the formats as a choice. -/
def formatChoice : String := "\x7b" ++ ",".intercalate (formats.map (·.1)) ++ "\x7d"

/-- How a part is used. -/
def usage : Part → List String
  | .program => [s!"usage: owdit [-h] [--version] [--no-banner] [--quiet] {commandChoice} ..."]
  | .analyze => [
    "usage: owdit analyze [-h] [--bytecode BYTECODE]",
    "                     [--bytecode-file BYTECODE_FILE] [--address ADDRESS]",
    s!"                     [--chain-id CHAIN_ID] [--format {formatChoice}]",
    "                     [--output OUTPUT] [--no-cache]",
    "                     [paths ...]"]
  | .config => ["usage: owdit config [-h]"]

/-- What a part is for, with its operands and options. -/
def details : Part → List String
  | .program => [
    "",
    "Owdit - smart contract static analysis",
    "",
    "positional arguments:",
    s!"  {commandChoice}",
    "    analyze         Analyze Solidity sources, bytecode or an address",
    "    config          Show current configuration",
    "",
    "options:",
    "  -h, --help        show this help message and exit",
    "  --version         Print version and exit",
    "  --no-banner       Suppress the startup banner",
    "  --quiet, -q       Minimal output"]
  | .analyze => [
    "",
    "positional arguments:",
    "  paths                 Solidity files or directories",
    "",
    "options:",
    "  -h, --help            show this help message and exit",
    "  --bytecode BYTECODE, -b BYTECODE",
    "                        Runtime bytecode as hex",
    "  --bytecode-file BYTECODE_FILE",
    "                        File containing runtime bytecode as hex",
    "  --address ADDRESS, -a ADDRESS",
    "                        On-chain contract address to fetch & analyze",
    "  --chain-id CHAIN_ID   Chain id (default: 1)",
    s!"  --format {formatChoice}, -f {formatChoice}",
    "                        Output format (default: table)",
    "  --output OUTPUT, -o OUTPUT",
    "                        Write output to file instead of stdout",
    "  --no-cache            Bypass the analysis cache"]
  | .config => [
    "",
    "options:",
    "  -h, --help  show this help message and exit"]

/-- The explanation of a part. -/
def help (part : Part) : String := lines (usage part ++ details part)

/-- What is said about a command line that a part cannot read. -/
def misuse (part : Part) (fault : WordFault) : String :=
  lines (usage part ++ [part.words ++ ": error: " ++ fault.message])

end ContractLens.Cli
