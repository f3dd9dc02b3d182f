import RadixRouter.Router.Dispatch

/-!
Files below a mount point. The pattern of a mount ends in a catch-all of an agreed name, and what
that takes is the name of the file.
-/

namespace RadixRouter

/-- Why a file is not served. -/
inductive FileFault where
  | notFound
  | permissionDenied
  | unreadable
  deriving DecidableEq, Repr

def FileFault.message : FileFault → String
  | notFound => "file not found"
  | permissionDenied => "invalid path"
  | unreadable => "unreadable file"

structure FileContent where
  bytes : Bytes
  contentType : Text
  deriving DecidableEq, Repr

/-- Opens the file of a given name. -/
abbrev FileSystem := Text → Run (Except FileFault FileContent)

/-- The name that the catch-all of a mount has to have. -/
def mountName : Text := "filepath".toList

/-- How the pattern of a mount has to end. -/
def mountSuffix : Text := '/' :: '*' :: mountName

/-- The answer that shows a file, or tells why it is not served. -/
def fileResponse : Except FileFault FileContent → Response
  | .ok file => ⟨200, Headers.insertText [] Header.contentType file.contentType, file.bytes⟩
  | .error .notFound => notFoundNotice
  | .error .permissionDenied => .notice 403 "403 Forbidden\n".toList
  | .error .unreadable => .notice 500 "500 Internal Server Error\n".toList

def fileHandler (files : FileSystem) : Handler := fun _ params _ => do
  let result ← files ((Params.get? params mountName).getD [])
  return fileResponse result

namespace Router

/-- Serves `files` under `pattern` for GET requests, behind `preHandler` if there is one. -/
def serveFiles (router : Router) (pattern : Text) (files : FileSystem)
    (preHandler : Option PreHandler) : Run (Router × Except RouteError Unit) :=
  if Text.endsWith mountSuffix pattern then
    router.handle Method.get pattern { handler := fileHandler files, preHandler := preHandler }
  else pure (router, .error (.serveFilesPattern pattern))

end Router

end RadixRouter
