/-!
# Log records

What the library tells about its work, in order. A record is a level and a text.
-/

namespace Hotswap.Log

/-- How much a record matters. -/
inductive Level where
  | error
  | warn
  | info
  | debug
  | trace
deriving DecidableEq, Repr

def Level.name : Level → String
  | .error => "ERROR"
  | .warn => "WARN"
  | .info => "INFO"
  | .debug => "DEBUG"
  | .trace => "TRACE"

/-- One record. -/
structure Record where
  level : Level
  text : String
deriving DecidableEq, Repr

/-- The record as one line. -/
def Record.line (r : Record) : String :=
  r.level.name ++ " " ++ r.text

def error (text : String) : Record := ⟨.error, text⟩

def warn (text : String) : Record := ⟨.warn, text⟩

def info (text : String) : Record := ⟨.info, text⟩

def debug (text : String) : Record := ⟨.debug, text⟩

def trace (text : String) : Record := ⟨.trace, text⟩

end Hotswap.Log
