import Hotswap.Effect
import Hotswap.Log
import Hotswap.Memory.Basic
import Hotswap.Text.Hex

/-!
# Protection windows

A window is a range of pages that is readable, writable and executable for as long as it is open.
Opening asks for the protection of every page before it changes any, and either switches all pages
or none. Closing gives each page back the protection it had; it tries all pages and names the first
that it could not put back.
-/

namespace Hotswap

open Machine (Address)

/-- A page and the protection it is to get back. -/
structure Saved where
  page : Address
  protection : Protection
deriving DecidableEq, Repr

/-- An open window: its pages, ascending. -/
structure Window where
  pages : List Saved
deriving DecidableEq, Repr

/-- The message for a page that could not be made writable. -/
def refusedMessage (page : Address) : String :=
  "error setting memory protections on page " ++ Text.hex page.toNat

/-- The message for a page that did not get its protection back. -/
def unrestoredMessage (page : Address) : String :=
  "error restoring memory protections on page " ++ Text.hex page.toNat

namespace Memory

/-- The protections of the given pages, or the first of them that is not there. -/
def query (m : Memory) : List Address → Except Address (List Saved)
  | [] => .ok []
  | page :: rest =>
    match (m.page page).protection? with
    | none => .error page
    | some protection =>
      match m.query rest with
      | .error missing => .error missing
      | .ok saved => .ok (⟨page, protection⟩ :: saved)

/-- Puts every page back that can be, and names the first that cannot. -/
def restore : List Saved → Memory → Memory × Option Address
  | [], m => (m, none)
  | s :: rest, m =>
    match m.protect s.page s.protection with
    | some m' => restore rest m'
    | none => ((restore rest m).1, some s.page)

/-- Lifts the protection of one page after the other. At the first that refuses, the pages in
`done`, which were lifted before, are put back. -/
def lift (done : List Saved) : List Saved → Memory → Memory × Option Address
  | [], m => (m, none)
  | s :: rest, m =>
    match m.protect s.page .full with
    | some m' => lift (done ++ [s]) rest m'
    | none => ((restore done m).1, some s.page)

end Memory

namespace Window

variable [Paging]

/-- Opens a window over the pages of `[location, location + length)`, or names the page that
stands in the way. -/
def openAt (location : Address) (length : Nat) (m : Memory) :
    Effect Log.Record Memory (Except Address Window) :=
  match m.query (coveredPages location length) with
  | .error page => .pure (.error page) m
  | .ok saved =>
    match Memory.lift [] saved m with
    | (m', some page) => .pure (.error page) m'
    | (m', none) =>
      ⟨.ok ⟨saved⟩, m', [Log.trace ("opened protection window over " ++ toString saved.length
        ++ " page(s) at " ++ Text.hex (pageFloor location).toNat)]⟩

/-- The number of pages. -/
def size (w : Window) : Nat :=
  w.pages.length

/-- Whether the window holds no page. -/
def isEmpty (w : Window) : Bool :=
  w.pages.isEmpty

/-- Gives every page its protection back, and names the first for which that fails. -/
def close (w : Window) (m : Memory) : Effect Log.Record Memory (Except Address Unit) :=
  match Memory.restore w.pages m with
  | (m', none) => .pure (.ok ()) m'
  | (m', some page) => .pure (.error page) m'

/-- Closes a window that nobody closed; a failure is only logged. -/
def release (w : Window) (m : Memory) : Effect Log.Record Memory Unit :=
  (w.close m).andThen fun
    | .ok (), m' => .pure () m'
    | .error page, m' => ⟨(), m', [Log.error (unrestoredMessage page)]⟩

end Window
end Hotswap
