import RadixRouter.Path.Clean
import RadixRouter.Router.Basic
import RadixRouter.Text.Html
import RadixRouter.Text.Percent
import RadixRouter.Tree.Repair

/-!
The answer to a request. The decoded path is resolved among the routes of the method. A miss may
be answered by a redirect, by the list of allowed methods, or by a notice, in that order.
-/

namespace RadixRouter

def redirectReason (status : Nat) : Text :=
  if status = 301 then "Moved Permanently".toList else "Temporary Redirect".toList

/-- The location of a redirect to `path`, which keeps the query of the request. -/
def redirectLocation (request : Request) (path : Text) : Text :=
  match request.target.query with
  | some query => Percent.encodePath path ++ '?' :: query
  | none => Percent.encodePath path

/-- A redirect to `path`. A GET request is answered with a page that holds the link, too. -/
def redirect (request : Request) (path : Text) (status : Nat) : Response :=
  let location := redirectLocation request path
  let body :=
    if request.method = Method.get then
      "<a href=\"".toList ++ Html.escape location ++ "\">".toList ++ redirectReason status
        ++ "</a>.\n\n".toList
    else []
  let headers := Headers.insertText [] Header.location location
  let headers :=
    if request.method = Method.get || request.method = Method.head then
      headers.insertText Header.contentType "text/html; charset=utf-8".toList
    else headers
  ⟨status, headers, Text.utf8 body⟩

/-- The answer where nothing is found. -/
def notFoundNotice : Response :=
  .notice 404 "404 page not found\n".toList

/-- The path with its final slash removed, or with one added if it has none to spare. -/
def Path.toggleSlash (path : Text) : Text :=
  if path.getLast? = some '/' && 1 < path.length then path.dropLast else path ++ ['/']

namespace Router

/-- Where a request for `path` that missed in `tree` should go instead. -/
def redirectTarget? (switches : Switches) (tree : Tree Endpoint) (path : Text) (slash : Bool) :
    Option Text :=
  if slash && switches.redirectTrailingSlash then some (Path.toggleSlash path)
  else if switches.redirectFixedPath then
    tree.repair switches.redirectTrailingSlash (Path.clean path)
  else none

/-- The answer that allows other methods, if the request is to be answered so. -/
def allowAnswer? (router : Router) (request : Request) (path : Text) (context : Context) :
    Option (Run Response) :=
  if request.method = Method.options && router.switches.handleOptions then
    (router.allowed path request.method).map fun allow =>
      pure ⟨200, Headers.insertText [] Header.allow allow, []⟩
  else if router.switches.handleMethodNotAllowed then
    (router.allowed path request.method).map fun allow => do
      let response ←
        match router.methodNotAllowed with
        | some handler => handler request [] context
        | none => pure (.notice 405 "Method Not Allowed\n".toList)
      return { response with headers := response.headers.insertText Header.allow allow }
  else none

/-- The answer to a request that neither a route nor a redirect answers. -/
def fallback (router : Router) (request : Request) (path : Text) (context : Context) :
    Run Response :=
  match router.allowAnswer? request path context with
  | some answer => answer
  | none =>
      match router.notFound with
      | some handler => handler request [] context
      | none => pure notFoundNotice

/-- The answer to a request, where a panic is not yet recovered. -/
def dispatch (router : Router) (request : Request) (context : Context) : Run Response :=
  let path := Percent.decodePath request.target.path
  match router.tree? request.method with
  | none => router.fallback request path context
  | some tree =>
      match tree.lookup path with
      | .hit endpoint params =>
          endpoint.call request params { context with route := some endpoint.pattern }
      | .miss slash =>
          if request.method ≠ Method.connect && path ≠ ['/'] then
            match redirectTarget? router.switches tree path slash with
            | some target =>
                pure (redirect request target (if request.method = Method.get then 301 else 307))
            | none => router.fallback request path context
          else router.fallback request path context

/-- The answer to a request. -/
def serve (router : Router) (request : Request) : Run Response :=
  let answer := router.dispatch request (Context.ofRequest request)
  match router.panicHandler with
  | some handler => Run.recovering answer (handler request)
  | none => answer

end Router

end RadixRouter
