import Hotswap.Effect
import Hotswap.Log
import Hotswap.Machine.Bytes

/-!
# Writers

Whatever bytes can be written through: a state, and for each write an answer, accepted or refused
for a cause. Nothing else is assumed of a writer; the real one is in `Hotswap.Memory.Install`.
-/

namespace Hotswap

open Machine (Address)

/-- A writer with states `σ` and causes of refusal `ε`. -/
structure Writer (σ ε : Type) where
  /-- Writes bytes at an address. -/
  write : Address → List UInt8 → σ → Effect Log.Record σ (Except ε Unit)
  /-- The text of a cause. -/
  explain : ε → String

namespace Writer

/-- A writer that writes nothing and accepts up to `limit` writes, or all of them. Its state is
the number of writes accepted so far. -/
def counting (limit : Option Nat) (refusal : String) : Writer Nat String where
  write _ _ n :=
    if limit.all fun most => n < most then .pure (.ok ()) (n + 1)
    else .pure (.error refusal) n
  explain := id

end Writer
end Hotswap
