import Hotswap.Memory.Window
import Hotswap.Writer

/-!
# Writing into protected memory

`Writer.bytes` stores bytes and looks at no protection. `Writer.windowed` runs any writer on memory
inside a protection window over the range to be written, and tells by its error how far the write
got: no window, a refusal by the inner writer, or bytes written but a page left open.
-/

namespace Hotswap

open Machine (Address)

/-- What went wrong around a write inside a window. -/
inductive WindowError (ε : Type) where
  /-- A page could not be read out or made writable; the inner writer was not called. -/
  | refused (page : Address)
  /-- A page did not get its protection back. -/
  | unrestored (page : Address)
  /-- The inner writer refused. -/
  | inner (cause : ε)
deriving DecidableEq, Repr

def WindowError.message {ε : Type} (explain : ε → String) : WindowError ε → String
  | .refused page => refusedMessage page
  | .unrestored page => unrestoredMessage page
  | .inner cause => explain cause

namespace Writer

/-- Stores the bytes, whatever the protection of their pages. -/
def bytes : Writer Memory Empty where
  write location bytes m := .pure (.ok ()) (m.store location bytes)
  explain := nofun

/-- Runs `inner` inside a window over the written range. A page that cannot be put back is
reported even where `inner` refused as well. -/
def windowed [Paging] {ε : Type} (inner : Writer Memory ε) : Writer Memory (WindowError ε) where
  write location bytes m :=
    (Window.openAt location bytes.length m).andThen fun
      | .error page, m => .pure (.error (.refused page)) m
      | .ok window, m =>
        (inner.write location bytes m).andThen fun written m =>
          (window.close m).andThen fun
            | .error page, m => .pure (.error (.unrestored page)) m
            | .ok (), m => .pure (written.mapError .inner) m
  explain := WindowError.message inner.explain

end Writer

/-- Writes bytes into memory whatever its protection, and leaves every protection as it was. -/
def Memory.install [Paging] (location : Address) (bytes : List UInt8) (m : Memory) :
    Effect Log.Record Memory (Except (WindowError Empty) Unit) :=
  Writer.bytes.windowed.write location bytes m

end Hotswap
