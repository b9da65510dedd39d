import Hotswap.Delivery.Disk
import Hotswap.Delivery.Settings
import Hotswap.Session.Call

/-!
# Watchers

A watcher loads modules from files and hands their candidates to a session. Nothing of a module
whose file name does not carry its version gets that far, and every candidate is stamped with the
version of its module first. A module that cannot be loaded and a candidate that is rejected stop
none of the others.

A module that was loaded stays in memory, since the base jumps into it from then on. Opening the
same path again finds it there and does not look at the disk. Another path that leads to its file
finds it as well.
-/

namespace Hotswap.Delivery

/-- Why nothing came of a file or a directory. -/
inductive LoadError where
  /-- The directory could not be listed. -/
  | unlisted (path : Path) (cause : DiskError)
  /-- The file is no library. -/
  | unloadable (path : Path)
  /-- The library has no entry of a module. -/
  | noEntry (path : Path)
  /-- The file name does not carry the version that the module reports. -/
  | version (path : Path) (reported : String)
deriving DecidableEq, Repr

namespace LoadError

def message : LoadError → String
  | unlisted path _ => "failed to scan " ++ path.text
  | unloadable path => "failed to load module " ++ path.text
  | noEntry path => "module " ++ path.text ++ " does not export `livepatch_module`"
  | version path reported =>
    "module " ++ path.text ++ " reports version " ++ reported
      ++ ", which its file name does not carry"

/-- The message with its cause, as it is logged. What the system's loader has to say about a
library is left out; a wrong version has no cause. -/
def report : LoadError → String
  | unlisted path cause => (unlisted path cause).message ++ ": " ++ cause.message
  | version path reported => (version path reported).message ++ ": "
  | e => e.message

end LoadError

/-- A path by which a module in memory is known. -/
structure Resident where
  path : Path
  /-- The path by which it was opened first. -/
  source : Path
  /-- The number of its file. -/
  file : Nat
deriving DecidableEq, Repr

/-- What a watcher works on: a session, the files, and the modules in memory. -/
structure Site (σ : Type) where
  session : Session σ
  disk : Disk
  residents : List Resident

/-- What can be opened as a library. -/
inductive Library where
  | module (resident : Resident)
  /-- A library that is no module. -/
  | stranger
deriving DecidableEq, Repr

namespace Site

variable {σ : Type}

/-- The module in memory that is known by the path. -/
def known? (site : Site σ) (path : Path) : Option Resident :=
  site.residents.find? fun r => r.path == path

/-- The module in a file, opened by the path: the one in memory that came from this file, if there
is one. -/
def opened (site : Site σ) (path : Path) (file : Nat) : Resident :=
  match site.residents.find? fun r => r.file == file with
  | some r => { r with path := path }
  | none => ⟨path, path, file⟩

/-- Opens the library at the path, if there is one. A path is looked up on the disk only if no
module in memory is known by the very same text. A path that the loader rewrites, and a name that it
looks up in directories of its own, lead away from the directories of modules, and to no library. -/
def library? (site : Site σ) (path : Path) : Option Library :=
  match site.known? path with
  | some r => some (.module r)
  | none =>
    if !path.isPlain then none
    else
      (site.disk.file? path).bind fun f =>
        match f.node with
        | .module => some (.module (site.opened path f.number))
        | .stranger => some .stranger
        | _ => none

/-- Keeps a module in memory. -/
def keep (site : Site σ) (r : Resident) : Site σ :=
  { site with residents := r :: site.residents }

/-- What is left once the file has been deleted, if it can be. -/
def unlink (site : Site σ) (path : Path) : Except DiskError (Site σ) :=
  (site.disk.unlink path).map fun disk => { site with disk := disk }

end Site

/-- A watcher: its settings, and the rig of the session that it feeds. -/
structure Watcher (σ ε : Type) where
  settings : Settings
  rig : Rig σ ε

/-- Something noticed about a path. -/
inductive Notice where
  | created (path : Path)
  | modified (path : Path)
  | other (path : Path)
deriving DecidableEq, Repr

/-- The path of a notice after which a module is worth loading. -/
def Notice.fresh? : Notice → Option Path
  | created path => some path
  | modified path => some path
  | other _ => none

namespace Watcher

variable {σ ε : Type}

/-- Hands over candidates in order and counts the accepted ones. -/
def submitAll (w : Watcher σ ε) :
    List Candidate → Session σ → Effect Event (Session σ) (Ending LoadError Nat)
  | [], s => .pure (.ok 0) s
  | c :: cs, s =>
    (w.rig.submit c s).andThen fun
      | .ok _, s => (w.submitAll cs s).next fun n s => .pure (.ok (n + 1)) s
      | .error e, s =>
        (w.submitAll cs s).after
          [.note (Log.warn ("rejected patch for " ++ c.entity ++ ": " ++ e.message))]
      | .aborted, s => .pure .aborted s

/-- Deletes the file of a loaded module, if the settings say so. -/
def discard (w : Watcher σ ε) (path : Path) (site : Site σ) : Effect Event (Site σ) Unit :=
  if w.settings.removeAfterLoad then
    match site.unlink path with
    | .ok site => .pure () site
    | .error cause =>
      ⟨(), site, [.note (Log.warn ("failed to remove " ++ path.text ++ ": " ++ cause.message))]⟩
  else .pure () site

/-- Takes what the module at `path` reports, and answers with the number of accepted candidates.
Nothing is handed over and the file stays if the name does not carry the version. -/
def accept (w : Watcher σ ε) (path : Path) (report : Report) (site : Site σ) :
    Effect Event (Site σ) (Ending LoadError Nat) :=
  if path.carries report.version w.settings.extension then
    let stamped := report.candidates.map fun c => { c with moduleVersion := report.version }
    ((w.submitAll stamped site.session).mapState fun s => { site with session := s }).next
      fun accepted site => (w.discard path site).map fun () => .ok accepted
  else .pure (.error (.version path report.version)) site

/-- Loads one module and answers with the number of accepted candidates. Only a module whose
candidates were taken stays in memory. -/
def load (w : Watcher σ ε) (path : Path) (site : Site σ) :
    Effect Event (Site σ) (Ending LoadError Nat) :=
  match site.library? path with
  | some (.module resident) =>
    let payload := site.disk.payloads resident.source
    let site := if payload.vanishes then (site.unlink resident.source).toOption.getD site else site
    (w.accept path payload.report site).next fun accepted site =>
      .pure (.ok accepted) (site.keep resident)
  | some .stranger => .pure (.error (.noEntry path)) site
  | none => .pure (.error (.unloadable path)) site

/-- Loads one module and logs what came of it; the answer is whether it was loaded. -/
def loadLogged (w : Watcher σ ε) (path : Path) (site : Site σ) :
    Effect Event (Site σ) (Ending LoadError Bool) :=
  Effect.after [.note (Log.info ("detected new module: " ++ path.text))] <|
    (w.load path site).andThen fun
      | .ok accepted, site =>
        ⟨.ok true, site, [.note (Log.info ("loaded module " ++ path.text ++ ", "
          ++ toString accepted ++ " candidate(s) accepted"))]⟩
      | .error e, site => ⟨.ok false, site, [.note (Log.error e.report)]⟩
      | .aborted, site => .pure .aborted site

/-- Loads modules in order and counts those that were loaded. -/
def loadAll (w : Watcher σ ε) :
    List Path → Site σ → Effect Event (Site σ) (Ending LoadError Nat)
  | [], site => .pure (.ok 0) site
  | path :: paths, site =>
    (w.loadLogged path site).next fun loaded site =>
      (w.loadAll paths site).next fun n site => .pure (.ok (if loaded then n + 1 else n)) site

/-- The listed paths that have the extension of modules. -/
def modulePaths (w : Watcher σ ε) (paths : List Path) : List Path :=
  paths.filter (Path.isModule w.settings.extension)

/-- The regular files among the paths, in path order. -/
def regularFiles (disk : Disk) (paths : List Path) : List Path :=
  (paths.filter fun p => disk.isFile p matches .ok true).mergeSort fun p q => p.text ≤ q.text

/-- A record for each of the paths about which nothing can be found out. -/
def skipped (disk : Disk) (paths : List Path) : List Event :=
  paths.filterMap fun p =>
    match disk.isFile p with
    | .ok _ => none
    | .error cause =>
      some (.note (Log.warn ("skipping " ++ p.text ++ ": " ++ cause.message)))

/-- Loads every module in the directory, in path order, and counts those that were loaded. -/
def loadExisting (w : Watcher σ ε) (site : Site σ) :
    Effect Event (Site σ) (Ending LoadError Nat) :=
  let directory := w.settings.directory
  match site.disk.list directory with
  | .error cause => .pure (.error (.unlisted directory cause)) site
  | .ok listed =>
    let modules := w.modulePaths listed
    (w.loadAll (regularFiles site.disk modules) site).after (skipped site.disk modules)

/-- Loads the module that a notice is about, if it is about one. -/
def heed (w : Watcher σ ε) (notice : Notice) (site : Site σ) :
    Effect Event (Site σ) (Ending LoadError Unit) :=
  match notice.fresh? with
  | some path =>
    if path.isModule w.settings.extension then
      (w.loadLogged path site).next fun _ site => .pure (.ok ()) site
    else .pure (.ok ()) site
  | none => .pure (.ok ()) site

end Watcher
end Hotswap.Delivery
