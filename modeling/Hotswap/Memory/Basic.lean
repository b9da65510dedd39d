import Hotswap.Memory.Page

/-!
# Memory

The bytes of the address space and the state of each page. Bytes and protections are independent:
`store` changes bytes whatever the protection, and it is for the caller to lift protections first.
A page is named by its start.
-/

namespace Hotswap

open Machine (Address)

/-- Bytes and pages. -/
structure Memory where
  byte : Address → UInt8
  /-- The state of the page that starts at an address. -/
  page : Address → Page

namespace Memory

/-- The `n` bytes from `location` on. -/
def load (m : Memory) (location : Address) (n : Nat) : List UInt8 :=
  (List.range n).map fun i => m.byte (location + UInt64.ofNat i)

/-- Writes bytes from `location` on. They are kept as an array, so that a look at any byte of the
result costs the same. -/
def store (m : Memory) (location : Address) (bytes : List UInt8) : Memory :=
  let stored := bytes.toArray
  { m with byte := fun x => (stored[(x - location).toNat]?).getD (m.byte x) }

/-- Replaces the state of one page. -/
def setPage (m : Memory) (start : Address) (p : Page) : Memory :=
  { m with page := fun x => if x = start then p else m.page x }

/-- Takes a page away. -/
def unmap (m : Memory) (start : Address) : Memory :=
  m.setPage start .unmapped

/-- Changes the protection of one page, unless that page refuses. -/
def protect (m : Memory) (start : Address) (p : Protection) : Option Memory :=
  ((m.page start).protect p).map (m.setPage start)

/-! ## What each operation does -/

@[simp] theorem page_store (m : Memory) (location : Address) (bytes : List UInt8) :
    (m.store location bytes).page = m.page := rfl

@[simp] theorem byte_setPage (m : Memory) (start : Address) (p : Page) :
    (m.setPage start p).byte = m.byte := rfl

theorem page_setPage (m : Memory) (start : Address) (p : Page) (x : Address) :
    (m.setPage start p).page x = if x = start then p else m.page x := rfl

theorem byte_store (m : Memory) (location : Address) (bytes : List UInt8) (x : Address) :
    (m.store location bytes).byte x = (bytes[(x - location).toNat]?).getD (m.byte x) := by
  simp [store]

@[simp] theorem length_load (m : Memory) (location : Address) (n : Nat) :
    (m.load location n).length = n := by
  simp [load]

end Memory
end Hotswap
