import Hotswap.Delivery.Path
import Hotswap.Session.Basic

/-!
# Files

The tree of files that a watcher can see. A place in the tree is the list of the names that lead
there from the top. A path leads to a place step by step, and every step is made from a directory:
`a/..` leads nowhere unless `a` is one. What a module does when it is loaded is a function of the
path by which it is opened, and still known when the file is gone. The entries of a directory are
listed in the order in which they are kept here, which nobody may rely on.
-/

namespace Hotswap.Delivery

/-- What a module reports when it is loaded. -/
structure Report where
  version : String
  candidates : List Candidate
deriving DecidableEq

/-- What a module does when it is loaded. -/
structure Payload where
  report : Report
  /-- Whether it deletes its own file meanwhile. -/
  vanishes : Bool
deriving DecidableEq

/-- A module that reports nothing at all. -/
def Payload.blank : Payload := ⟨⟨"", []⟩, false⟩

/-- What is found at a place. -/
inductive Node where
  | module
  /-- A library that is no module. -/
  | stranger
  /-- A file that is no library. -/
  | garbage
  | directory
  /-- An entry that leads nowhere. -/
  | dangling
deriving DecidableEq, Repr

/-- The names from the top of the tree down to an entry. -/
abbrev Place := List String

/-- An entry of the tree. -/
structure File where
  place : Place
  node : Node
  /-- Tells it from every other file that there ever was. -/
  number : Nat
  /-- The time of the last modification in seconds. -/
  modified : Nat
deriving DecidableEq, Repr

/-- All files. -/
structure Disk where
  files : List File
  /-- What the module does that is opened by this path. -/
  payloads : Path → Payload
  /-- The number of the next file. -/
  next : Nat
  /-- The present in seconds. -/
  now : Nat

/-- What the file system answers instead. -/
inductive DiskError where
  | notFound
  | notDirectory
  | isDirectory
  /-- A name or the whole path has too many bytes. -/
  | tooLong
  /-- The path holds the one character that no path can hold. -/
  | zeroByte
deriving DecidableEq, Repr

def DiskError.message : DiskError → String
  | .notFound => "No such file or directory (os error 2)"
  | .notDirectory => "Not a directory (os error 20)"
  | .isDirectory => "Is a directory (os error 21)"
  | .tooLong => "File name too long (os error 36)"
  | .zeroByte => "file name contained an unexpected NUL byte"

/-- The most bytes in a name. -/
def nameLimit : Nat := 255

/-- A path has fewer bytes than this. -/
def pathLimit : Nat := 4096

namespace Disk

/-- A disk without files. -/
def blank (now : Nat) : Disk := ⟨[], fun _ => .blank, 0, now⟩

/-! ## Places -/

/-- The entry at a place. -/
def fileAt? (d : Disk) (place : Place) : Option File :=
  d.files.find? fun f => f.place == place

/-- The node at a place; the top is a directory. -/
def nodeAt? (d : Disk) (place : Place) : Option Node :=
  if place = [] then some .directory else (d.fileAt? place).map File.node

/-- Whether there is a directory at the place. -/
def isDirectory (d : Disk) (place : Place) : Bool :=
  d.nodeAt? place matches some .directory

/-- Where the steps lead from `place`. -/
def walk (d : Disk) (place : Place) : List Component → Except DiskError Place
  | [] => .ok place
  | step :: steps =>
    if d.isDirectory place then
      match step with
      | .root => d.walk [] steps
      | .here => d.walk place steps
      | .parent => d.walk place.dropLast steps
      | .name name =>
        if nameLimit < name.utf8ByteSize then .error .tooLong
        else
          match d.nodeAt? (place ++ [name]) with
          | none => .error .notFound
          | some .dangling => .error .notFound
          | some _ => d.walk (place ++ [name]) steps
    else .error .notDirectory

/-- The place that the path leads to. -/
def find (d : Disk) (p : Path) : Except DiskError Place :=
  if p.text.toList.contains '\x00' then .error .zeroByte
  else if p.text.isEmpty then .error .notFound
  else if pathLimit ≤ p.text.utf8ByteSize then .error .tooLong
  else
    match d.walk [] p.components with
    | .error cause => .error cause
    | .ok place =>
      if p.endsInDirectory && !d.isDirectory place then .error .notDirectory else .ok place

/-- The entry that the path leads to. -/
def file? (d : Disk) (p : Path) : Option File :=
  (d.find p).toOption.bind d.fileAt?

/-- Whether the path leads to a regular file, as far as that can be found out. -/
def isFile (d : Disk) (p : Path) : Except DiskError Bool :=
  (d.find p).map fun place => !d.isDirectory place

/-! ## Directories -/

/-- The name that the entry has in the directory at `place`, if it lies directly in it. -/
def nameIn? (place : Place) (f : File) : Option String :=
  match f.place.getLast? with
  | some name => if f.place.dropLast = place then some name else none
  | none => none

/-- The entries of a directory. -/
def list (d : Disk) (dir : Path) : Except DiskError (List Path) :=
  match d.find dir with
  | .error cause => .error cause
  | .ok place =>
    if d.isDirectory place then .ok ((d.files.filterMap (nameIn? place)).map dir.join)
    else .error .notDirectory

/-- The place of the entry that the path names, whether there is one or not. -/
def entryPlace (d : Disk) (p : Path) : Except DiskError Place :=
  match p.components.getLast? with
  | some (.name name) =>
    match d.walk [] p.components.dropLast with
    | .error cause => .error cause
    | .ok place => if d.isDirectory place then .ok (place ++ [name]) else .error .notDirectory
  | _ => .error .notFound

/-! ## Changes -/

/-- Sets the time of modification of the entry at a place. -/
def stamp (d : Disk) (place : Place) (time : Nat) : Disk :=
  { d with
    files := d.files.map fun f => if f.place = place then { f with modified := time } else f }

/-- The disk without the entry at a place and all below it. -/
def without (d : Disk) (place : Place) : Disk :=
  { d with files := d.files.filter fun f => !place.isPrefixOf f.place }

/-- Puts an entry at the path, in place of the one there was. A directory that is already there
stays, and a path into nowhere changes nothing. -/
def put (d : Disk) (p : Path) (node : Node) (modified : Nat) : Disk :=
  match d.entryPlace p with
  | .error _ => d
  | .ok place =>
    if node = .directory ∧ d.isDirectory place then d
    else
      let d' := if (d.nodeAt? place).isSome then d else d.stamp place.dropLast d.now
      { d' with
        files := (d'.without place).files ++ [⟨place, node, d.next, modified⟩]
        next := d.next + 1 }

/-- Puts a module at the path. From now on this is what is opened by this path. -/
def deliver (d : Disk) (p : Path) (payload : Payload) (modified : Nat) : Disk :=
  { d.put p .module modified with
    payloads := fun q => if q = p then payload else d.payloads q }

/-- The disk without the entry at a place, if there is one, and all below it. -/
def drop (d : Disk) (place : Place) : Disk :=
  if (d.nodeAt? place).isSome then (d.without place).stamp place.dropLast d.now else d

/-- Deletes the file that the path names. A directory is not deleted this way. -/
def unlink (d : Disk) (p : Path) : Except DiskError Disk :=
  match d.entryPlace p with
  | .error cause => .error cause
  | .ok place =>
    match d.nodeAt? place with
    | none => .error .notFound
    | some .directory => .error .isDirectory
    | some _ => .ok (d.drop place)

/-- The disk without the entry that the path names, whatever it is. -/
def erase (d : Disk) (p : Path) : Disk :=
  match d.entryPlace p with
  | .ok place => d.drop place
  | .error _ => d

/-- Sets the time of modification of what the path leads to. -/
def touch (d : Disk) (p : Path) (time : Nat) : Disk :=
  match d.find p with
  | .ok place => d.stamp place time
  | .error _ => d

end Disk
end Hotswap.Delivery
