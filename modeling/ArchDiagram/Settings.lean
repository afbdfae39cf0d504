import ArchDiagram.Number.Numeral
import ArchDiagram.Text.Literal
import ArchDiagram.Text.Separated
import ArchDiagram.Text.Uppercase

/-!
Settings, given as texts with a default for each. The first text that cannot be read, in the order
of the settings, is the fault of the whole.
-/

namespace ArchDiagram

open Text

/-- What can be set. -/
inductive Setting where
  | defaultTitle
  | nodeWidth
  | nodeHeight
  | spacingX
  | spacingY
  | columns
  | origins
  | logLevel
  deriving DecidableEq

namespace Setting

def default : Setting → String
  | defaultTitle => "Untitled Diagram"
  | nodeWidth => "120"
  | nodeHeight => "80"
  | spacingX => "200"
  | spacingY => "150"
  | columns => "4"
  | origins => "http://localhost:5173"
  | logLevel => "INFO"

end Setting

inductive SettingFault where
  | notANumber (text : String)
  | notAWhole (text : String)
  | tooManyDigits (count : Nat)
  | unknownLevel (name : String)

/-- The text in the fault of a whole number is cut to two hundred characters. -/
def SettingFault.message : SettingFault → String
  | notANumber text =>
    "could not convert string to float: " ++ String.ofList (literal text.toList)
  | notAWhole text =>
    "invalid literal for int() with base 10: " ++ String.ofList ((literal text.toList).take 200)
  | tooManyDigits count =>
    "Exceeds the limit (" ++ toString Numeral.maxDigits ++
      " digits) for integer string conversion: value has " ++ toString count ++
      " digits; use sys.set_int_max_str_digits() to increase the limit"
  | unknownLevel name => "Unknown level: " ++ String.ofList (literal name.toList)

def readNumber (text : String) : Except SettingFault Binary64 :=
  match Numeral.real? text.toList with
  | some v => .ok v
  | none => .error (.notANumber text)

def readWhole (text : String) : Except SettingFault Int :=
  match Numeral.whole text.toList with
  | .ok i => .ok i
  | .error .malformed => .error (.notAWhole text)
  | .error (.tooLong n) => .error (.tooManyDigits n)

/-- The pieces between commas, trimmed, less the empty ones. -/
def readOrigins (text : String) : List String :=
  ((splitOn ',' text.toList).map trim).filter (!·.isEmpty) |>.map String.ofList

inductive LogLevel where
  | critical
  | error
  | warning
  | info
  | debug
  | unset
  deriving DecidableEq

def LogLevel.name : LogLevel → String
  | critical => "CRITICAL"
  | error => "ERROR"
  | warning => "WARNING"
  | info => "INFO"
  | debug => "DEBUG"
  | unset => "NOTSET"

def LogLevel.ofName? (name : String) : Option LogLevel :=
  if name = "FATAL" then some .critical
  else if name = "WARN" then some .warning
  else [critical, error, warning, info, debug, unset].find? (·.name = name)

structure Settings where
  defaultTitle : String
  nodeWidth : Binary64
  nodeHeight : Binary64
  spacingX : Binary64
  spacingY : Binary64
  columns : Int
  origins : List String
  /-- In capitals. -/
  logLevel : String

namespace Settings

/-- Reads all settings from the texts that are given. -/
def read (given : Setting → Option String) : Except SettingFault Settings := do
  let text (s : Setting) : String := (given s).getD s.default
  let nodeWidth ← readNumber (text .nodeWidth)
  let nodeHeight ← readNumber (text .nodeHeight)
  let spacingX ← readNumber (text .spacingX)
  let spacingY ← readNumber (text .spacingY)
  let columns ← readWhole (text .columns)
  return {
    defaultTitle := text .defaultTitle
    nodeWidth, nodeHeight, spacingX, spacingY, columns
    origins := readOrigins (text .origins)
    logLevel := String.ofList (upper (text .logLevel).toList) }

/-- The level that the service logs at. -/
def level (s : Settings) : Except SettingFault LogLevel :=
  match LogLevel.ofName? s.logLevel with
  | some l => .ok l
  | none => .error (.unknownLevel s.logLevel)

end Settings

end ArchDiagram
