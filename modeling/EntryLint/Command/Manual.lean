import EntryLint.Command.Arguments
import EntryLint.Tool

/-!
# The commands

The tool has three commands: one checks a project, one takes import paths apart, and one lists rules
and presets. Their options and their manuals stand here.
-/

namespace EntryLint.Command

/-- Lines of a text, each with its end. -/
def paragraph (lines : List String) : String :=
  String.join (lines.map fun line => line ++ "\n")

/-- The option that prints the manual. -/
def helpOption : OptionSpec :=
  { names := ["-h", "--help"], kind := .help }

/-- The options for more and for less log, of which one can be given. -/
def logOptions : List OptionSpec :=
  [{ names := ["--debug"], kind := .flag, excludes := ["--quiet"] },
    { names := ["--quiet"], kind := .flag, excludes := ["--debug"] }]

/-- The tool itself, which takes one of its commands. -/
def mainSpec : Spec where
  program := Tool.command
  usage := paragraph
    ["usage: eml [-h] [-v] \x7bcheck,classify,list\x7d ..."]
  details := paragraph
    ["Entered modules: import rules for entry-point files",
      "",
      "positional arguments:",
      "  \x7bcheck,classify,list\x7d",
      "    check               проверить импорты в файлах проекта",
      "    classify            разобрать пути импортов (JSON)",
      "    list                списки сущностей (JSON)",
      "",
      "options:",
      "  -h, --help            show this help message and exit",
      "  -v, --version         show program's version number and exit"]
  options :=
    [helpOption, { names := ["-v", "--version"], kind := .version }]
  operand := "cmd"
  arity := .command ["check", "classify", "list"]

/-- The command that checks a project. -/
def checkSpec : Spec where
  program := Tool.command ++ " check"
  usage := paragraph
    ["usage: eml check [-h] [--root ROOT] [--config CONFIG] [--format \x7btext,json\x7d]",
      "                 [--alias ALIAS] [--no-gitignore] [--max-warnings N]",
      "                 [--debug | --quiet]",
      "                 [targets ...]"]
  details := paragraph
    ["positional arguments:",
      "  targets               файлы или каталоги относительно --root (по умолчанию",
      "                        весь проект)",
      "",
      "options:",
      "  -h, --help            show this help message and exit",
      "  --root ROOT           корень проекта (по умолчанию текущий каталог)",
      "  --config CONFIG       путь к конфигу (по умолчанию <root>/eml.yaml)",
      "  --format \x7btext,json\x7d  формат вывода",
      "  --alias ALIAS         алиас корня top-level импортов (например: @ или ~)",
      "  --no-gitignore        не учитывать .gitignore при обходе",
      "  --max-warnings N      код выхода 1, если предупреждений больше N (по",
      "                        умолчанию без ограничения)",
      "  --debug               подробный лог в stderr (также EML_DEBUG=1)",
      "  --quiet               только предупреждения и ошибки в stderr"]
  options :=
    [helpOption, { names := ["--root"], kind := .value .text },
      { names := ["--config"], kind := .value .text },
      { names := ["--format"], kind := .value (.choice ["text", "json"]) },
      { names := ["--alias"], kind := .value .text },
      { names := ["--no-gitignore"], kind := .flag },
      { names := ["--max-warnings"], kind := .value .int }] ++ logOptions
  operand := "targets"
  arity := .any

/-- The command that takes import paths apart. -/
def classifySpec : Spec where
  program := Tool.command ++ " classify"
  usage := paragraph
    ["usage: eml classify [-h] [--alias ALIAS] [--ext .EXT] [--debug | --quiet]",
      "                    paths [paths ...]"]
  details := paragraph
    ["positional arguments:",
      "  paths          строки источников импорта, например ./ui/entry.ts",
      "",
      "options:",
      "  -h, --help     show this help message and exit",
      "  --alias ALIAS  алиас корня top-level импортов",
      "  --ext .EXT     отрезаемое расширение (можно указать несколько; по умолчанию",
      "                 .ts .tsx .js .jsx)",
      "  --debug        подробный лог в stderr (также EML_DEBUG=1)",
      "  --quiet        только предупреждения и ошибки в stderr"]
  options :=
    [helpOption, { names := ["--alias"], kind := .value .text },
      { names := ["--ext"], kind := .value .text }] ++ logOptions
  operand := "paths"
  arity := .atLeastOne

/-- The command that lists rules or presets. -/
def listSpec : Spec where
  program := Tool.command ++ " list"
  usage := paragraph
    ["usage: eml list [-h] [--debug | --quiet] \x7brules,configs\x7d"]
  details := paragraph
    ["positional arguments:",
      "  \x7brules,configs\x7d  что вывести",
      "",
      "options:",
      "  -h, --help       show this help message and exit",
      "  --debug          подробный лог в stderr (также EML_DEBUG=1)",
      "  --quiet          только предупреждения и ошибки в stderr"]
  options :=
    helpOption :: logOptions
  operand := "what"
  arity := .one ["rules", "configs"]

end EntryLint.Command
