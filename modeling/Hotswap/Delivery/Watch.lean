import Hotswap.Delivery.Watcher

/-!
# Watching a directory

A watch loads what is already in the directory and then looks again and again. A look sees the
directory itself and the entries in it that lead somewhere, each with its time of modification, and
notices what is new, what has grown younger and what is gone since the look before. Of changes that
happen between two looks only the outcome is seen. If the directory cannot be read at the start,
that is logged once and nothing is ever noticed.
-/

namespace Hotswap.Delivery

/-! ## Looks -/

/-- What a look sees: paths with their times of modification. -/
abbrev Sight := List (Path × Nat)

/-- What a look at the directory sees; a directory that is a file is all there is to see. -/
def Disk.sight (d : Disk) (directory : Path) : Sight :=
  match d.find directory with
  | .error _ => []
  | .ok place =>
    let entries := d.files.filterMap fun f =>
      if f.node = .dangling then none
      else (Disk.nameIn? place f).map fun name => (directory.join name, f.modified)
    (directory, (d.fileAt? place).elim d.now File.modified)
      :: if d.isDirectory place then entries else []

/-- The time at which a path was modified last, if the look saw it. -/
def Sight.time? (seen : Sight) (path : Path) : Option Nat :=
  (seen.find? fun entry => entry.1 == path).map Prod.snd

/-- What has happened to a path that is seen now. -/
def Sight.notice? (before : Sight) (path : Path) (time : Nat) : Option Notice :=
  match before.time? path with
  | none => some (.created path)
  | some old => if old < time then some (.modified path) else none

/-- What has happened between two looks. -/
def Sight.notices (before after : Sight) : List Notice :=
  (after.filterMap fun entry => before.notice? entry.1 entry.2)
    ++ before.filterMap fun entry =>
      if (Sight.time? after entry.1).isNone then some (.other entry.1) else none

/-! ## Changes -/

/-- Something that happens to the files while they are watched. -/
inductive Change where
  | put (path : Path) (node : Node) (modified : Nat)
  | deliver (path : Path) (payload : Payload) (modified : Nat)
  | touch (path : Path) (modified : Nat)
  | remove (path : Path)
deriving DecidableEq

/-- The files after the change. -/
def Change.perform : Change → Disk → Disk
  | put path node modified, d => d.put path node modified
  | deliver path payload modified, d => d.deliver path payload modified
  | touch path modified, d => d.touch path modified
  | remove path, d => d.erase path

/-- A change while the directory is watched, and what follows it. -/
structure Happening where
  change : Change
  /-- Whether there is no look before the next change or the end, given what the watcher has logged
  until now. -/
  hurried : List Log.Record → Bool

namespace Watcher

variable {σ ε : Type}

/-- Heeds notices in order. -/
def heedAll (w : Watcher σ ε) :
    List Notice → Site σ → Effect Event (Site σ) (Ending LoadError Unit)
  | [], site => .pure (.ok ()) site
  | notice :: notices, site =>
    (w.heed notice site).next fun () site => w.heedAll notices site

/-- Looks at the directory, heeds what has happened since the look that saw `seen`, and answers
with what is seen now. -/
def look (w : Watcher σ ε) (seen : Sight) (site : Site σ) :
    Effect Event (Site σ) (Ending LoadError Sight) :=
  let sight := site.disk.sight w.settings.directory
  (w.heedAll (seen.notices sight) site).next fun () site => .pure (.ok sight) site

/-- Looks if there is time for it, and answers with what was seen last and with all that has been
logged, where `told` was logged before. -/
def lookIf (w : Watcher σ ε) (time : Bool) (told : List Log.Record) (seen : Sight) (site : Site σ) :
    Effect Event (Site σ) (Ending LoadError (Sight × List Log.Record)) :=
  if time then
    let looked := w.look seen site
    looked.next fun sight site => .pure (.ok (sight, told ++ Event.notes looked.trace)) site
  else .pure (.ok (seen, told)) site

/-- Lets the changes happen one after the other, each between two looks unless there is a hurry: the
look before it sees what the loading of modules has done to the directory. -/
def follow (w : Watcher σ ε) : (happenings : List Happening) → (time : Bool) →
    List Log.Record → Sight → Site σ → Effect Event (Site σ) (Ending LoadError Unit)
  | [], _, _, _, site => .pure (.ok ()) site
  | h :: happenings, time, told, seen, site =>
    (w.lookIf time told seen site).next fun (seen, told) site =>
      let time := !h.hurried told
      (w.lookIf time told seen { site with disk := h.change.perform site.disk }).next
        fun (seen, told) site => w.follow happenings time told seen site

/-- Lets the changes happen while nobody looks, and logs why. -/
def unseen (w : Watcher σ ε) (cause : DiskError) (happenings : List Happening) (site : Site σ) :
    Effect Event (Site σ) (Ending LoadError Unit) :=
  let directory := w.settings.directory
  ⟨.ok (), { site with disk := happenings.foldl (fun d h => h.change.perform d) site.disk },
    [.note (Log.warn ("error watching " ++ directory.text ++ ": " ++ cause.message
      ++ " about [" ++ Text.quoted directory.text ++ "]"))]⟩

/-- Loads what is in the directory before anything is noticed; a failure to list it is logged. -/
def begin (w : Watcher σ ε) (site : Site σ) :
    Effect Event (Site σ) (Ending LoadError Unit) :=
  (w.loadExisting site).andThen fun
    | .ok _, site => .pure (.ok ()) site
    | .error e, site => ⟨.ok (), site, [.note (Log.warn e.report)]⟩
    | .aborted, site => .pure .aborted site

/-- Watches the directory while the changes happen. -/
def watch (w : Watcher σ ε) (happenings : List Happening) (site : Site σ) :
    Effect Event (Site σ) (Ending LoadError Unit) :=
  let directory := w.settings.directory
  let seen := site.disk.sight directory
  let readable := site.disk.find directory
  Effect.after [.note (Log.info ("watching " ++ directory.text ++ " for patch modules"))] <|
    let begun := w.begin site
    begun.next fun () site =>
      let followed :=
        match readable with
        | .ok _ => w.follow happenings true (Event.notes begun.trace) seen site
        | .error cause => w.unseen cause happenings site
      followed.next fun () site =>
        ⟨.ok (), site, [.note (Log.info ("stopped watching " ++ directory.text))]⟩

end Watcher
end Hotswap.Delivery
