import RadixRouter.Router.Files

/-!
A finite tree of directories and files, and the file system that serves the files below one of its
directories. A request cannot leave that directory: a `..` in it is refused, whatever it would
lead to.
-/

namespace RadixRouter

/-- Where a file or directory lies: the names on the way to it. -/
abbrev Location := List Text

/-- A file with its bytes, or a directory. -/
inductive DirectoryEntry where
  | file (bytes : Bytes)
  | directory
  deriving DecidableEq, Repr

/-- Files and directories by their locations. A directory above an entry need not be listed. -/
structure Directory where
  entries : List (Location × DirectoryEntry)

namespace Directory

/-- The names of a path: what is between its slashes, without empty names and `.`. -/
def names (path : Text) : Location :=
  (Text.splitAt '/' path).filter fun name => name ≠ [] && name ≠ ['.']

def file? (directory : Directory) (location : Location) : Option Bytes :=
  directory.entries.findSome? fun (place, entry) =>
    match entry with
    | .file bytes => if place = location then some bytes else none
    | .directory => none

def isDirectory (directory : Directory) (location : Location) : Bool :=
  location = [] || directory.entries.any fun (place, entry) =>
    match entry with
    | .file _ => location.isPrefixOf place && location ≠ place
    | .directory => location.isPrefixOf place

/-- The location that `names` lead to from `start`, where `..` leads back out of a directory. -/
def walk (directory : Directory) (start names : Location) : Option Location :=
  names.foldlM (fun at' name =>
    if name = ['.', '.'] then
      if directory.isDirectory at' && at' ≠ [] then some at'.dropLast else none
    else some (at' ++ [name])) start

/-- The location that a relative path names for a file, seen from the directory at `start`. A path
that is empty, or ends in a slash or in `.`, names no file. -/
def fileLocation? (directory : Directory) (start : Location) (path : Text) : Option Location :=
  let last := (Text.splitAt '/' path).getLast?
  if path.head? = some '/' || last = some [] || last = some ['.'] then none
  else directory.walk start (names path)

end Directory

/-- A part of a path. -/
inductive Component where
  /-- The slash that an absolute path begins with. -/
  | root
  /-- The `.` that a relative path begins with. -/
  | current
  /-- A `..`. -/
  | parent
  | name (name : Text)
  deriving DecidableEq, Repr

/-- What a path element is a part as. An empty one and `.` are none. -/
def Component.ofElement? (element : Text) : Option Component :=
  if element = [] || element = ['.'] then none
  else if element = ['.', '.'] then some .parent
  else some (.name element)

/-- The parts of a path. Slashes that repeat or that it ends with do not count, and a `.` counts only
where the path begins with it. -/
def components (path : Text) : List Component :=
  let elements := Text.splitAt '/' path
  let parts := elements.filterMap Component.ofElement?
  if path.head? = some '/' then .root :: parts
  else if elements.head? = some ['.'] then .current :: parts
  else parts

/-- Where a part of a path leads to from `location`. Parts that could lead out of it are refused. -/
def Location.enter? (location : Location) : Component → Option Location
  | .name name => some (location ++ [name])
  | .current => some location
  | .root => none
  | .parent => none

/-- The types of content by the ending of a file's name. -/
def contentTypes : List (String × String) :=
  [("html", "text/html; charset=utf-8"), ("htm", "text/html; charset=utf-8"),
   ("css", "text/css; charset=utf-8"), ("js", "text/javascript; charset=utf-8"),
   ("mjs", "text/javascript; charset=utf-8"), ("json", "application/json"),
   ("txt", "text/plain; charset=utf-8"), ("svg", "image/svg+xml"), ("png", "image/png"),
   ("jpg", "image/jpeg"), ("jpeg", "image/jpeg"), ("gif", "image/gif"), ("ico", "image/x-icon"),
   ("wasm", "application/wasm"), ("pdf", "application/pdf")]

/-- The ending of a file's name: what follows its last dot, unless the name begins with that
dot. -/
def fileEnding (name : Text) : Text :=
  let back := name.reverse.takeWhile (· ≠ '.')
  if back.length + 1 < name.length then back.reverse else []

def contentType (name : Text) : Text :=
  let ending := Text.lowerAscii (fileEnding name)
  match contentTypes.find? fun entry => entry.1.toList = ending with
  | some entry => entry.2.toList
  | none => "application/octet-stream".toList

/-- The files below `base`. A directory is shown by its index file. -/
structure StaticFiles where
  directory : Directory
  base : Location
  index : Text := "index.html".toList

namespace StaticFiles

/-- The location that a path names below the base, as if it began without a slash. -/
def locate? (files : StaticFiles) (path : Text) : Option Location :=
  (components (path.dropWhile (· = '/'))).foldlM Location.enter? files.base

/-- The file that is shown for `location`: itself, or the index file in it. -/
def target? (files : StaticFiles) (path : Text) (location : Location) : Option Location :=
  if path = [] || path.getLast? = some '/' || files.directory.isDirectory location then
    files.directory.fileLocation? location files.index
  else some location

/-- The file that `path` names, as it is served. -/
def openFile (files : StaticFiles) (path : Text) : Except FileFault FileContent :=
  match files.locate? path with
  | none => .error .permissionDenied
  | some location =>
      match files.target? path location with
      | none => .error .notFound
      | some target =>
          match files.directory.file? target with
          | some bytes => .ok ⟨bytes, contentType (target.getLast?.getD [])⟩
          | none => .error .notFound

def fileSystem (files : StaticFiles) : FileSystem := fun path =>
  pure (files.openFile path)

end StaticFiles

end RadixRouter
