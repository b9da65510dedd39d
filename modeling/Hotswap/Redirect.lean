import Hotswap.Machine.Trampoline
import Hotswap.Writer

/-!
# Redirection

One function is redirected to another by writing a trampoline over its entry. The events of this
and every larger action are log records and attempts to write, in order.
-/

namespace Hotswap

open Machine (Address CodeError)

/-- Something that happened: a record was logged, or a write was handed to the writer. -/
inductive Event where
  | note (record : Log.Record)
  | attempt (address : Address) (bytes : List UInt8) (accepted : Bool)
deriving DecidableEq, Repr

/-- The records among the events. -/
def Event.notes (trace : List Event) : List Log.Record :=
  trace.filterMap fun
    | note record => some record
    | attempt _ _ _ => none

/-- The accepted writes among the events. -/
def Event.writes (trace : List Event) : List (Address × List UInt8) :=
  trace.filterMap fun
    | attempt address bytes true => some (address, bytes)
    | _ => none

/-- The code of a jump to an address, where there is one. -/
abbrev Encoder := Address → Except CodeError (List UInt8)

/-- Why a function was not redirected. -/
inductive RedirectError (ε : Type) where
  /-- Source and destination are the same function. -/
  | sameAddress (address : Address)
  /-- There is no trampoline to the destination. -/
  | code (cause : CodeError)
  /-- The writer refused. -/
  | write (cause : ε)
deriving DecidableEq, Repr

def RedirectError.message {ε : Type} (explain : ε → String) : RedirectError ε → String
  | .sameAddress address => "source and destination are both " ++ Text.hex address.toNat
  | .code cause => cause.message
  | .write cause => explain cause

namespace Writer

variable {σ ε : Type}

/-- Hands a write over; its own records come before it among the events. -/
def attempt (w : Writer σ ε) (location : Address) (bytes : List UInt8) (s : σ) :
    Effect Event σ (Except ε Unit) :=
  ((w.write location bytes s).mapTrace .note).andThen fun answer s =>
    ⟨answer, s, [.attempt location bytes answer.isOk]⟩

/-- Redirects the function at `source` to the one at `destination`. -/
def redirect (w : Writer σ ε) (encode : Encoder) (source destination : Address) (s : σ) :
    Effect Event σ (Except (RedirectError ε) Unit) :=
  if source = destination then .pure (.error (.sameAddress source)) s
  else
    match encode destination with
    | .error cause => .pure (.error (.code cause)) s
    | .ok code => (w.attempt source code s).map (·.mapError .write)

end Writer
end Hotswap
