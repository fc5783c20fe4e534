/-
Settings of an engine.
-/
import StagedResolver.Value.Projection

namespace StagedResolver

inductive ReportLevel where
  | off
  | debug
  | info
  | warn
  | error
deriving DecidableEq

namespace ReportLevel

instance : Inhabited ReportLevel := ⟨.debug⟩

def all : List ReportLevel := [.off, .debug, .info, .warn, .error]

def name : ReportLevel → String
  | .off => "off"
  | .debug => "debug"
  | .info => "info"
  | .warn => "warn"
  | .error => "error"

def severity? : ReportLevel → Option String
  | .off => none
  | .debug => some "DEBUG"
  | .info => some "INFO"
  | .warn => some "WARN"
  | .error => some "ERROR"

/-- Whether two texts are the same but for the case of the letters A to Z. -/
def sameLetters (first second : String) : Bool :=
  first.toList.map Char.toLower == second.toList.map Char.toLower

def ofName? (text : String) : Option ReportLevel :=
  all.find? fun level => sameLetters level.name text

def refusal (text : String) : String :=
  "\"" ++ text ++ "\" is not a valid debug level (expected one of " ++
    String.intercalate ", " (all.map name) ++ ")."

end ReportLevel

inductive KeyOrder where
  | schema
  | selection
deriving DecidableEq, Inhabited

/-- How responses are written, how deep queries may be, how loudly debug nodes
report, and what resolvers find in their environment. -/
structure Settings where
  absence : AbsenceStyle
  keyOrder : KeyOrder
  maxDepth : Option Nat
  level : ReportLevel
  environment : Record
deriving Inhabited

namespace Settings

def standard : Settings := ⟨.null, .schema, none, .debug, []⟩

def isStandard (settings : Settings) : Bool :=
  settings.absence == standard.absence &&
    settings.keyOrder == standard.keyOrder &&
    settings.maxDepth == standard.maxDepth && settings.level == standard.level &&
    settings.environment.isEmpty

end Settings

end StagedResolver
