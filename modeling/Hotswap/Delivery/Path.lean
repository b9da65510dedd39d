/-!
# Paths

A path is a text, and what it means is its components: `a/./b` and `a//b/` go where `a/b` goes. The
name of a file is its last component, and the extension is what follows the last dot of the name,
unless the name starts with that dot.
-/

namespace Hotswap.Delivery

/-- A path as it is written. -/
structure Path where
  text : String
deriving DecidableEq, Repr

/-- One step of a path. -/
inductive Component where
  /-- The start of an absolute path. -/
  | root
  /-- A dot at the start of a relative path; elsewhere a dot is no step. -/
  | here
  | parent
  | name (name : String)
deriving DecidableEq, Repr

/-- The pieces between the separators, the empty ones included. -/
def pieces : List Char → List (List Char)
  | [] => [[]]
  | c :: cs =>
    if c = '/' then [] :: pieces cs
    else
      match pieces cs with
      | [] => [[c]]
      | piece :: rest => (c :: piece) :: rest

/-- The step that a piece makes away from the start of a path. -/
def Component.ofPiece? : List Char → Option Component
  | [] => none
  | ['.'] => none
  | ['.', '.'] => some .parent
  | piece => some (.name (String.ofList piece))

/-- What comes after the last dot, if anything comes before that dot. -/
def extensionOf? (name : List Char) : Option (List Char) :=
  match name.reverse.dropWhile (· != '.') with
  | _ :: _ :: _ => some (name.reverse.takeWhile (· != '.')).reverse
  | _ => none

/-- The words that the system's loader replaces in the path of a library, where they follow a dollar
sign. -/
def loaderWords : List (List Char) :=
  ["ORIGIN".toList, "PLATFORM".toList, "LIB".toList]

/-- Whether a word goes on with this character. -/
def continuesWord (c : Char) : Bool :=
  c.isAlphanum || c == '_'

/-- Whether one of the loader's words stands at the start, in braces or as a whole word. -/
def startsWithLoaderWord (cs : List Char) : Bool :=
  loaderWords.any fun word =>
    ('\x7b' :: word ++ ['\x7d']).isPrefixOf cs
      || (word.isPrefixOf cs && !(cs.drop word.length).head?.any continuesWord)

/-- Whether the loader would replace something. -/
def hasLoaderWord : List Char → Bool
  | [] => false
  | c :: cs => (c == '$' && startsWithLoaderWord cs) || hasLoaderWord cs

namespace Path

/-- The steps of the path. -/
def components (p : Path) : List Component :=
  let all := pieces p.text.toList
  let steps := all.filterMap Component.ofPiece?
  match all with
  | [] :: _ :: _ => .root :: steps
  | ['.'] :: _ => .here :: steps
  | _ => steps

/-- Whether the path is written so that it can only lead to a directory: `a/` or `a/.`. -/
def endsInDirectory (p : Path) : Bool :=
  match (pieces p.text.toList).getLast? with
  | some [] => true
  | some ['.'] => true
  | _ => false

/-- The name of the file, if the path ends in one. -/
def fileName? (p : Path) : Option String :=
  match p.components.getLast? with
  | some (.name name) => some name
  | _ => none

/-- The extension of the file name. -/
def extension? (p : Path) : Option String :=
  p.fileName?.bind fun name => (extensionOf? name.toList).map String.ofList

/-- The path `name` as seen from the directory `p`. -/
def join (p : Path) (name : String) : Path :=
  if name.toList.head? == some '/' then ⟨name⟩
  else if p.text.isEmpty || p.text.toList.getLast? == some '/' then ⟨p.text ++ name⟩
  else ⟨p.text ++ "/" ++ name⟩

/-- Whether the loader takes the path as it is written: it replaces nothing in it, and a path with a
separator it looks up nowhere else. -/
def isPlain (p : Path) : Bool :=
  p.text.toList.contains '/' && !hasLoaderWord p.text.toList

/-- Whether two paths make the same steps. -/
def same (p q : Path) : Bool :=
  p.components == q.components

/-- Whether the file has the extension of modules. -/
def isModule (extension : String) (p : Path) : Bool :=
  p.extension? == some extension

/-- Whether the file name ends in the version, a dot and the extension. An empty version is carried
by no name. -/
def carries (version extension : String) (p : Path) : Bool :=
  !version.isEmpty &&
    p.fileName?.any fun name =>
      (version ++ "." ++ extension).toList.isSuffixOf name.toList

end Path
end Hotswap.Delivery
