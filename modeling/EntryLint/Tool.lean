/-!
# The tool

The names that the tool goes by in reports and messages.
-/

namespace EntryLint.Tool

/-- The name of the distribution, as reports give it. -/
def name : String := "entered-modules"

/-- The version of the tool. -/
def version : String := "0.1.0"

/-- The name of the command. -/
def command : String := "eml"

/-- The name of a project's configuration file. -/
def configName : String := "eml.yaml"

/-- The environment variable that asks for the whole log. -/
def debugVariable : String := "EML_DEBUG"

end EntryLint.Tool
