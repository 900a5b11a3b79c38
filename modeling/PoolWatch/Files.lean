import PoolWatch.Text.Split

/-!
# Files

The files that a command can see, each under its path. Folders are where files are.
-/

namespace PoolWatch

namespace Path

/-- The names on a path. Repeated slashes and single dots say nothing. -/
def names (path : String) : List String :=
  ((Text.split (· == '/') path.toList).map String.ofList).filter fun n => n != "" && n != "."

def isRooted (path : String) : Bool := path.toList.head? == some '/'

def ofNames (rooted : Bool) (names : List String) : String :=
  (if rooted then "/" else "") ++ "/".intercalate names

/-- A path without the names on it that say nothing. -/
def plain (path : String) : String := ofNames (isRooted path) (names path)

/-- The names that are left when double dots have taken back those before them. `done` holds the
names before, the nearest first. -/
def resolveFrom (done : List String) : List String → List String
  | [] => done.reverse
  | n :: rest => if n = ".." then resolveFrom (done.drop 1) rest else resolveFrom (n :: done) rest

/-- The one path by which a file is known. -/
def resolved (path : String) : String := ofNames (isRooted path) (resolveFrom [] (names path))

/-- A name in a folder. The empty folder is where the program runs. -/
def join (folder name : String) : String :=
  if folder.isEmpty then name
  else if folder.toList.getLast? = some '/' then folder ++ name
  else folder ++ "/" ++ name

end Path

inductive FileError
  | alreadyThere
  | noFolder
  | isFolder
deriving DecidableEq

def FileError.message : FileError → String
  | alreadyThere => "File exists (os error 17)"
  | noFolder => "Not a directory (os error 20)"
  | isFolder => "Is a directory (os error 21)"

structure Files where
  /-- Resolved paths with the texts of the files. -/
  texts : List (String × String)

namespace Files

def ofTexts (texts : List (String × String)) : Files :=
  ⟨texts.map fun (path, text) => (Path.resolved path, text)⟩

def text? (path : String) (files : Files) : Option String := files.texts.lookup (Path.resolved path)

def isFile (path : String) (files : Files) : Bool := (files.text? path).isSome

/-- A folder is there if a file is in it. -/
def isFolder (path : String) (files : Files) : Bool :=
  files.texts.any fun (p, _) => (Path.resolved path ++ "/").toList.isPrefixOf p.toList

def isThere (path : String) (files : Files) : Bool := files.isFile path || files.isFolder path

/-- A file is in the way of a path that leads through it. -/
def isBlocked (path : String) (files : Files) : Bool :=
  files.texts.any fun (p, _) => (p ++ "/").toList.isPrefixOf (Path.resolved path).toList

/-- Makes a folder, and those it is in. Folders need nothing to be there. -/
def makeFolder (path : String) (files : Files) : Except FileError Files :=
  if files.isFile path then .error .alreadyThere
  else if files.isBlocked path then .error .noFolder
  else .ok files

def put (path text : String) : List (String × String) → List (String × String)
  | [] => [(path, text)]
  | (p, old) :: rest => if p = path then (p, text) :: rest else (p, old) :: put path text rest

def write (path text : String) (files : Files) : Except FileError Files :=
  if files.isFolder path then .error .isFolder
  else .ok ⟨put (Path.resolved path) text files.texts⟩

end Files

end PoolWatch
