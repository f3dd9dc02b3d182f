import RadixRouter.Proofs.Http.Target
import RadixRouter.Proofs.Text.Percent
import RadixRouter.Router.Dispatch

/-!
The location of a redirect: it always stands in the answer, and a client reads the path of the
redirect and the query of the request from it.
-/

namespace RadixRouter

/-! ### The header -/

/-- A text without control characters can stand in a header. -/
theorem Header.value?_eq_some {text : Text}
    (h : ∀ c ∈ text, 0x20 ≤ c.toNat ∧ c.toNat ≠ 0x7F) :
    value? text = some (Text.utf8 text) := by
  have hall : (Text.utf8 text).all isValueByte = true := by
    rw [List.all_eq_true]
    intro b hb
    simp only [isValueByte, Bool.or_eq_true, Bool.and_eq_true, decide_eq_true_eq]
    left
    rcases Text.mem_utf8_cases hb with ⟨c, hc, hascii, rfl⟩ | ⟨c, -, -, hlarge⟩
    · obtain ⟨hlow, hdelete⟩ := h c hc
      have hcode : (UInt8.ofNat c.toNat).toNat = c.toNat := by
        rw [UInt8.toNat_ofNat', Nat.mod_eq_of_lt (by omega)]
      refine ⟨?_, ?_⟩
      · rw [UInt8.le_iff_toNat_le, hcode]
        exact hlow
      · intro heq
        apply hdelete
        rw [← hcode, heq]
        rfl
    · rw [UInt8.le_iff_toNat_le] at hlarge
      have hlarge : 128 ≤ b.toNat := hlarge
      refine ⟨UInt8.le_iff_toNat_le.mpr ?_, ?_⟩
      · change 32 ≤ b.toNat
        omega
      · rintro rfl
        contradiction
  rw [value?]
  simp only [hall, if_true]

theorem Headers.get?_insert_of_ne {name name' : Text} (hne : name' ≠ name) (headers : Headers)
    (value : Bytes) : (headers.insert name' value).get? name = headers.get? name := by
  have hkept : ∀ header : Header,
      (header.name ≠ name' ∧ header.name = name) ↔ header.name = name := by
    intro header
    refine and_iff_right_of_imp ?_
    rintro rfl
    exact Ne.symm hne
  simp only [insert, get?, List.find?_append, List.find?_filter, decide_eq_true_eq, hkept]
  simp [hne]

theorem Headers.get?_insertText_of_ne {name name' : Text} (hne : name' ≠ name) (headers : Headers)
    (value : Text) : (headers.insertText name' value).get? name = headers.get? name := by
  unfold insertText
  split
  · exact get?_insert_of_ne hne headers _
  · rfl

/-! ### Redirects -/

/-- Where a redirect of `request` to `path` sends a client. -/
def Request.redirected (request : Request) (path : Text) : Target :=
  ⟨Percent.encodePath path, request.target.query⟩

theorem redirectLocation_eq (request : Request) (path : Text) :
    redirectLocation request path = (request.redirected path).write := rfl

section Redirect

variable {request : Request} {text : Text} (htarget : Target.ofText? text = some request.target)
  (path : Text)
include htarget

theorem readable_redirected : (request.redirected path).Readable := by
  have hquery := Target.query_of_ofText? htarget
  exact ⟨Percent.isPathChar_of_mem_encodePath, hquery⟩

theorem ofPathAndQuery?_redirectLocation :
    Target.ofPathAndQuery? (redirectLocation request path) = some (request.redirected path) :=
  Target.ofPathAndQuery?_write (readable_redirected htarget path)

/-- A redirect tells its location. -/
theorem get?_location_redirect (status : Nat) :
    (redirect request path status).headers.get? Header.location
      = some (Text.utf8 (redirectLocation request path)) := by
  have hvalue := Header.value?_eq_some
    (Target.bounds_of_mem_write (readable_redirected htarget path))
  have hlocation : (Headers.insertText [] Header.location (redirectLocation request path)).get?
      Header.location = some (Text.utf8 (redirectLocation request path)) := by
    rw [redirectLocation_eq, Headers.insertText, hvalue]
    exact Headers.get?_insert_self _ _ _
  simp only [redirect]
  split
  · rw [Headers.get?_insertText_of_ne (by decide)]
    exact hlocation
  · exact hlocation

end Redirect

/-- Whether a response sends the client of a request to the path `target`: by the status for the
method, and by a location from which the path and the query of the request are read. -/
structure Response.SendsTo (response : Response) (request : Request) (target : Text) : Prop where
  status : response.status = if request.method = Method.get then 301 else 307
  location : ∀ {text}, Target.ofText? text = some request.target → ∃ location follow,
    response.headers.get? Header.location = some (Text.utf8 location)
      ∧ Target.ofPathAndQuery? location = some follow
      ∧ Percent.decodePath follow.path = target
      ∧ follow.query = request.target.query

theorem redirect_sendsTo (request : Request) (path : Text) :
    (redirect request path (if request.method = Method.get then 301 else 307)).SendsTo request
      path where
  status := rfl
  location htarget :=
    ⟨redirectLocation request path, request.redirected path,
      get?_location_redirect htarget path _, ofPathAndQuery?_redirectLocation htarget path,
      Percent.decodePath_encodePath path, rfl⟩

end RadixRouter
