set_option autoImplicit false
set_option relaxedAutoImplicit false

namespace GuildSandbox.CommandLine

def versionText : String := "guild-scripts v0.1.0"

def helpText : String :=
  "\n".intercalate
    [versionText,
     "",
     "Compiles and runs Discord interaction scripts in a metered sandbox.",
     "",
     "USAGE:",
     "    guild-scripts check <SCRIPT> [--config PATH]",
     "    guild-scripts run <SCRIPT> <FIXTURE> [--config PATH]",
     "",
     "COMMANDS:",
     "    check    Compile a script and report errors",
     "    run      Run a script against a JSON fixture with a recording",
     "             REST client; prints the Discord calls and the run report",
     "",
     "OPTIONS:",
     "    -c, --config PATH    TOML configuration file [default: built-in defaults]",
     "    -h, --help           Print this help message and exit",
     "    -V, --version        Print version and exit",
     "",
     "FIXTURE:",
     "    JSON object with \"interaction\", \"permissions\" and optionally",
     "    \"cache\" and \"saved_messages\".",
     "",
     "ENVIRONMENT VARIABLES:",
     "    RUST_LOG    Log level filter for tracing",
     "                (e.g. debug, guild_scripts=debug,warn)",
     "    Variables are referenced in the config file via $\x7bVAR_NAME\x7d syntax.",
     "",
     "EXAMPLES:",
     "    guild-scripts check scripts/counter.rhai",
     "    guild-scripts run scripts/counter.rhai fixtures/click.json",
     "    RUST_LOG=debug guild-scripts run scripts/counter.rhai fixtures/click.json"]

def notice? (argument : String) : Option String :=
  if argument = "--version" || argument = "-V" then some versionText
  else if argument = "--help" || argument = "-h" then some helpText
  else none

end GuildSandbox.CommandLine
