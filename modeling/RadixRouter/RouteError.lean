import RadixRouter.Text

/-!
Why a route is refused. Each cause carries the text that its message quotes.
-/

namespace RadixRouter

/-- The cause of a refused registration. -/
inductive RouteError where
  /-- The pattern is the empty text. -/
  | empty
  /-- The pattern does not begin with a slash. -/
  | missingLeadingSlash (path : Text)
  /-- A `:` or `*` is followed by a slash or by the end. -/
  | unnamedWildcard (path : Text)
  /-- One element holds two wildcard marks. -/
  | multipleWildcardsInSegment (segment path : Text)
  /-- A `*name` is followed by more of the pattern. -/
  | catchAllNotAtEnd (path : Text)
  /-- A `*name` does not fill its element. -/
  | catchAllWithoutSlash (path : Text)
  /-- Another wildcard stands at the same place; `front` is the pattern up to and with it. -/
  | wildcardConflict (segment path existing front : Text)
  /-- A catch-all would share its place with another route. -/
  | catchAllConflict (path existing : Text)
  /-- The pattern is registered already. -/
  | duplicate (method path : Text)
  /-- A file mount has to end in a catch-all of the agreed name. -/
  | serveFilesPattern (path : Text)
  deriving DecidableEq, Repr

namespace RouteError

/-- A tree does not know its method; the router adds it to the one message that names it. -/
def withMethod (method : Text) : RouteError → RouteError
  | duplicate _ path => duplicate method path
  | other => other

/-- The message for people, without the method's own text where a tree reports by itself. -/
def message : RouteError → String
  | empty => "route pattern is empty"
  | missingLeadingSlash path =>
      "path must begin with '/' in path '" ++ String.ofList path ++ "'"
  | unnamedWildcard path =>
      "wildcards must be named with a non-empty name in path '" ++ String.ofList path ++ "'"
  | multipleWildcardsInSegment segment path =>
      "only one wildcard per path segment is allowed, has: '" ++ String.ofList segment
        ++ "' in path '" ++ String.ofList path ++ "'"
  | catchAllNotAtEnd path =>
      "catch-all routes are only allowed at the end of the path in path '"
        ++ String.ofList path ++ "'"
  | catchAllWithoutSlash path => "no / before catch-all in path '" ++ String.ofList path ++ "'"
  | wildcardConflict segment path existing front =>
      "'" ++ String.ofList segment ++ "' in new path '" ++ String.ofList path
        ++ "' conflicts with existing wildcard '" ++ String.ofList existing
        ++ "' in existing prefix '" ++ String.ofList front ++ "'"
  | catchAllConflict path existing =>
      "catch-all in new path '" ++ String.ofList path ++ "' conflicts with existing route '"
        ++ String.ofList existing ++ "'"
  | duplicate method path =>
      "a handle is already registered for " ++ String.ofList method ++ " '"
        ++ String.ofList path ++ "'"
  | serveFilesPattern path =>
      "path must end with /*filepath in path '" ++ String.ofList path ++ "'"

end RouteError

end RadixRouter
