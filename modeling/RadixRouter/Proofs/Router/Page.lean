import RadixRouter.Proofs.Http.Location
import RadixRouter.Proofs.Router.Dispatch
import RadixRouter.Proofs.Text.Html

/-!
The page that comes with the redirect of a GET request: a link whose text cannot break out of the
page, and which says the same as the location.
-/

namespace RadixRouter

/-- The page of a redirect that holds `link`, which is escaped already. -/
def linkPage (link : Text) : Text :=
  "<a href=\"".toList ++ link ++ "\">Moved Permanently</a>.\n\n".toList

theorem linkPage_eq (link : Text) :
    linkPage link
      = "<a href=\"".toList ++ link ++ "\">".toList ++ redirectReason 301
          ++ "</a>.\n\n".toList := by
  have htail : "\">Moved Permanently</a>.\n\n".toList
      = "\">".toList ++ redirectReason 301 ++ "</a>.\n\n".toList := by decide
  calc linkPage link
      = ("<a href=\"".toList ++ link)
          ++ ("\">".toList ++ redirectReason 301 ++ "</a>.\n\n".toList) :=
        congrArg ("<a href=\"".toList ++ link ++ ·) htail
    _ = _ := by simp only [List.append_assoc]

theorem body_redirect {request : Request} (hget : request.method = Method.get) (path : Text) :
    (redirect request path 301).body
      = Text.utf8 (linkPage (Html.escape (redirectLocation request path))) := by
  rw [linkPage_eq]
  simp only [redirect, if_pos hget]

namespace Router

variable {router : Router} {request : Request}

/-- A GET request that is redirected gets a page with a link that is inert in its attribute, whatever
the path and the query were, and whose entities stand for the text of the location. -/
theorem redirect_page_inert {text target : Text} (htarget : Target.ofText? text = some request.target)
    (hget : request.method = Method.get) (hredirect : router.redirectsTo? request = some target) :
    ∃ response location link, router.serve request = pure response
      ∧ response.status = 301
      ∧ response.headers.get? Header.location = some (Text.utf8 location)
      ∧ response.body = Text.utf8 (linkPage link)
      ∧ Html.Inert link
      ∧ Html.unescape link = location := by
  have hserve := serve_of_dispatch_eq_pure (dispatch_of_redirectsTo? hredirect _)
  rw [redirectStatus, if_pos hget] at hserve
  exact ⟨redirect request target 301, redirectLocation request target,
    Html.escape (redirectLocation request target), hserve, rfl,
    get?_location_redirect htarget target 301, body_redirect hget target, Html.inert_escape _,
    Html.unescape_escape _⟩

def parlour : Router :=
  registerAll {} [(Method.get, ⟨"/tea".toList, fun _ _ _ => pure (.ok []), none⟩)]

/-- A request with a slash too many, and with a query that has quotes and an entity in it. -/
def quoting : Request :=
  ⟨Method.get, ⟨"/tea/".toList, some "x='&lt;'&amp;y".toList⟩, [], [], none⟩

/-- The quotes are entities in the page, and the entity of the query is no entity there. -/
theorem parlour_page_inert :
    ∃ response location link, parlour.serve quoting = pure response
      ∧ response.status = 301
      ∧ response.headers.get? Header.location = some (Text.utf8 location)
      ∧ response.body = Text.utf8 (linkPage link)
      ∧ Html.Inert link
      ∧ Html.unescape link = location := by
  have htarget : Target.ofText? "/tea/?x='&lt;'&amp;y".toList = some quoting.target := by
    decide +kernel
  have hredirect : parlour.redirectsTo? quoting = some "/tea".toList := by decide +kernel
  exact redirect_page_inert htarget rfl hredirect

example :
    Html.escape (redirectLocation quoting "/tea".toList)
      = "/tea?x=&#39;&amp;lt;&#39;&amp;amp;y".toList := by
  decide +kernel

end Router

end RadixRouter
