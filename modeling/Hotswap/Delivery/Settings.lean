import Hotswap.Delivery.Path
import Hotswap.Log
import Hotswap.Text.Blank

/-!
# Settings of a watcher

Where to look for modules, how often, and what to do with them. Two variables override the defaults:
a directory counts if it is not empty, and an interval if it is a positive number of milliseconds
below 2^64, written in decimal digits with an optional plus sign between optional blanks.
-/

namespace Hotswap.Delivery

/-- Where and how to look for modules. -/
structure Settings where
  directory : Path := ⟨"."⟩
  /-- Milliseconds between two looks. -/
  interval : Nat := 1000
  /-- The extension of module files, without the dot. -/
  extension : String := "so"
  /-- Whether a module file is deleted once it is loaded. -/
  removeAfterLoad : Bool := true
deriving DecidableEq, Repr

/-- The value of a decimal digit. -/
def digitValue (c : Char) : Nat :=
  c.toNat - '0'.toNat

/-- The number that decimal digits stand for. -/
def decimal (digits : List Char) : Nat :=
  digits.foldl (fun n c => 10 * n + digitValue c) 0

/-- A positive number of milliseconds, as the variable spells it. -/
def interval? (text : String) : Option Nat :=
  let digits :=
    match Text.trim text.toList with
    | '+' :: cs => cs
    | cs => cs
  if digits ≠ [] ∧ digits.all Char.isDigit ∧ 0 < decimal digits ∧ decimal digits < UInt64.size then
    some (decimal digits)
  else none

namespace Settings

/-- The variable for the interval. -/
def intervalVariable : String := "LIVEPATCH_INTERVAL_MS"

/-- The variable for the directory. -/
def directoryVariable : String := "LIVEPATCH_DIR"

/-- The defaults with the directory variable taken into account. -/
def withVariableDirectory (s : Settings) : Option String → Settings
  | some dir => if dir.isEmpty then s else { s with directory := ⟨dir⟩ }
  | none => s

/-- The settings with the interval variable taken into account; a value that is no interval is
logged and changes nothing. -/
def withVariableInterval (s : Settings) : Option String → Settings × List Log.Record
  | none => (s, [])
  | some text =>
    match interval? text with
    | some ms => ({ s with interval := ms }, [])
    | none => (s, [Log.warn ("ignoring invalid " ++ intervalVariable ++ "=" ++ text)])

/-- The defaults, overridden by the variables as `lookup` finds them. -/
def ofLookup (lookup : String → Option String) : Settings × List Log.Record :=
  (withVariableDirectory {} (lookup directoryVariable)).withVariableInterval
    (lookup intervalVariable)

/-- Whether the settings are the same, paths compared by where they lead. -/
def same (s t : Settings) : Bool :=
  s.directory.same t.directory && s.interval == t.interval && s.extension == t.extension
    && s.removeAfterLoad == t.removeAfterLoad

end Settings
end Hotswap.Delivery
