import Wheelwright.Launcher.Literal
/-!
# The launcher

An installed wheel has a small Python package that finds the bundled program and runs it in its own
place. The package's texts are fixed but for two string literals: the version, and the name that the
program is stored under.
-/

namespace Wheelwright.Launcher

/-- The lines of the package's module. -/
def initLines (version binaryName : String) : List String :=
  ["\"\"\"Launcher for the bundled native executable.\"\"\"",
    "",
    "import os",
    "import stat",
    "import sys",
    "",
    "__version__ = " ++ Literal.write version,
    "",
    "_BINARY_NAME = " ++ Literal.write binaryName,
    "",
    "",
    "def get_binary_path():",
    "    \"\"\"Return the path of the executable under this package's bin/ directory.\"\"\"",
    "    bin_dir = os.path.join(os.path.dirname(os.path.abspath(__file__)), \"bin\")",
    "    path = os.path.join(bin_dir, _BINARY_NAME)",
    "    if sys.platform == \"win32\" and not os.path.exists(path):",
    "        if not path.lower().endswith(\".exe\"):",
    "            path = path + \".exe\"",
    "    return path",
    "",
    "",
    "def _ensure_executable(path):",
    "    if sys.platform == \"win32\":",
    "        return",
    "    mode = os.stat(path).st_mode",
    "    wanted = stat.S_IXUSR | stat.S_IXGRP | stat.S_IXOTH",
    "    if mode & wanted != wanted:",
    "        os.chmod(path, mode | wanted)",
    "",
    "",
    "def main():",
    "    path = get_binary_path()",
    "    if not os.path.exists(path):",
    "        sys.stderr.write(\"%s: bundled binary not found at %s\\n\" % (_BINARY_NAME, path))",
    "        sys.exit(1)",
    "    _ensure_executable(path)",
    "    args = [path] + sys.argv[1:]",
    "    if sys.platform == \"win32\":",
    "        import subprocess",
    "",
    "        sys.exit(subprocess.call(args))",
    "    os.execv(path, args)"]

/-- The lines that are the same in every module: those before the version, between it and the
program's name, and after that. -/
def before : List String := (initLines "" "").take 6

def between : List String := ((initLines "" "").drop 7).take 1

def after : List String := (initLines "" "").drop 9

theorem initLines_eq (version binaryName : String) : initLines version binaryName =
    before ++ ("__version__ = " ++ Literal.write version) ::
      (between ++ ("_BINARY_NAME = " ++ Literal.write binaryName) :: after) := rfl

/-- The lines of the module that runs with `python -m`. -/
def mainLines : List String :=
  ["from . import main", "", "if __name__ == \"__main__\":", "    main()"]

/-- Lines as a text, each with its line end. -/
def textOfLines (lines : List String) : String := String.join (lines.map (· ++ "\n"))

/-- The package's module: the version, where the program is, and how to run it. -/
def initModule (version binaryName : String) : String := textOfLines (initLines version binaryName)

/-- The module that runs with `python -m`. -/
def mainModule : String := textOfLines mainLines

end Wheelwright.Launcher
