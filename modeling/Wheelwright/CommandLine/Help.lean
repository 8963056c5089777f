/-!
# The help text
-/

namespace Wheelwright.CommandLine

/-- The lines of the help text: the options, what the aliases stand for, and two examples. -/
def helpLines : List String :=
  ["Wrap a native executable into an installable Python wheel.",
    "",
    "Usage: bin-to-wheel [OPTIONS] --name <NAME> --version <VERSION> " ++
      "--binary <PATH> <--platform <TAG>|--auto-platform>",
    "",
    "Options:",
    "      --name <NAME>                  Package name as published (hyphens allowed)",
    "      --version <VERSION>            Package version, used verbatim",
    "      --binary <PATH>                Native executable to wrap",
    "      --platform <TAG>               Target platform alias or canonical tag",
    "      --auto-platform                Use the platform tag of the running host",
    "      --output-dir <DIR>             " ++
      "Directory for the wheel (default: $BIN_TO_WHEEL_OUT_DIR or dist)",
    "      --entry-point <NAME>           Console command to install",
    "      --description <DESCRIPTION>    One-line summary",
    "      --author <AUTHOR>              ",
    "      --license <LICENSE>            ",
    "      --url <URL>                    Project home page",
    "      --long-description <MARKDOWN>  Long description (Markdown)",
    "      --readme <PATH>                Read the long description from a Markdown file",
    "  -q, --quiet                        Suppress human output (errors still print to stderr)",
    "  -v, --verbose...                   Increase logging (-vv reaches debug)",
    "      --trace                        Force trace logging regardless of -v/-q",
    "      --json                         Emit \x7bstatus,message,details\x7d JSON envelopes",
    "      --no-color                     Disable colored human output",
    "  -h, --help                         Print help",
    "",
    "Platforms:",
    "  linux-x86_64   -> manylinux_2_17_x86_64",
    "  macos-arm64    -> macosx_11_0_arm64",
    "  macos-x86_64   -> macosx_10_15_x86_64",
    "  windows-x64    -> win_amd64",
    "  Canonical wheel platform tags are accepted as-is.",
    "",
    "Examples:",
    "  bin-to-wheel --name erpl-adt --version 2026.2.14 --binary build/erpl-adt \\",
    "      --platform linux-x86_64 --entry-point erpl-adt",
    "  bin-to-wheel --name my-tool --version 0.1.0 --binary my-tool --auto-platform"]

/-- The help text. -/
def helpText : String := String.join (helpLines.map (· ++ "\n"))

end Wheelwright.CommandLine
