import Hotswap.Entity.Operation

/-!
# Tables

What an entity publishes about itself: its layout and its operations in declaration order.
-/

namespace Hotswap.Entity

open Machine (Address)

/-- The published description of an entity. -/
structure Table where
  layout : Layout
  operations : List Operation
deriving DecidableEq

namespace Table

/-- The key of the entity. -/
def key (table : Table) : String :=
  table.layout.key

/-- A table without operations. -/
def empty (layout : Layout) : Table :=
  ⟨layout, []⟩

/-- Appends an operation. -/
def add (table : Table) (op : Operation) : Table :=
  { table with operations := table.operations ++ [op] }

/-- Appends an operation of a base entity. -/
def define (table : Table) (name : String) (shape : Shape) (entry : Address) : Table :=
  table.add (shape.operation .define name entry)

/-- Appends a replacement for the base operation of the same name. -/
def override (table : Table) (name : String) (shape : Shape) (entry : Address) : Table :=
  table.add (shape.operation .override name entry)

/-- Appends an operation taken over from the embedded base. -/
def forward (table : Table) (name : String) (shape : Shape) (entry : Address) : Table :=
  table.add (shape.operation .forward name entry)

/-- The first operation called `name`. -/
def operation? (table : Table) (name : String) : Option Operation :=
  table.operations.find? fun op => op.name == name

/-- The first replacement for the operation called `name`. -/
def override? (table : Table) (name : String) : Option Operation :=
  table.operations.find? fun op => op.role == .override && op.name == name

end Table

end Hotswap.Entity
