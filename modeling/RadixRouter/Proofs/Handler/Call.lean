import RadixRouter.Handler.Basic
import RadixRouter.Proofs.Run

/-!
How the callbacks of an endpoint end: which of them run, in which order, and which one has the last
word.
-/

namespace RadixRouter.Endpoint

/-- How an endpoint ends: by its pre-handler, or by its handler if there is no pre-handler or if
that lets the request through. -/
inductive Ends (endpoint : Endpoint) (request : Request) (params : Params) (context : Context) :
    List Text → Except Panic Response → List Text → Prop where
  | handled {notes later : List Text} {outcome : Except Panic Response}
      (habsent : endpoint.preHandler = none)
      (hhandler : (endpoint.handler request params context).runFrom notes = (outcome, later)) :
      Ends endpoint request params context notes outcome later
  | prevented {notes later : List Text} {response : Response} {preHandler : PreHandler}
      (hpresent : endpoint.preHandler = some preHandler)
      (hanswer : (preHandler request params context).Yields notes (some response) later) :
      Ends endpoint request params context notes (.ok response) later
  | panicked {notes later : List Text} {cause : Panic} {preHandler : PreHandler}
      (hpresent : endpoint.preHandler = some preHandler)
      (hpanic : (preHandler request params context).runFrom notes = (.error cause, later)) :
      Ends endpoint request params context notes (.error cause) later
  | passed {notes mid later : List Text} {outcome : Except Panic Response} {preHandler : PreHandler}
      (hpresent : endpoint.preHandler = some preHandler)
      (hpass : (preHandler request params context).Yields notes none mid)
      (hhandler : (endpoint.handler request params context).runFrom mid = (outcome, later)) :
      Ends endpoint request params context notes outcome later

/-- Whether an endpoint answers without a panic. -/
def Answers (endpoint : Endpoint) (request : Request) (params : Params) (context : Context)
    (notes : List Text) (response : Response) (later : List Text) : Prop :=
  endpoint.Ends request params context notes (.ok response) later

variable {endpoint : Endpoint} {request : Request} {params : Params} {context : Context}
  {notes later : List Text} {outcome : Except Panic Response} {response : Response}

theorem call_runFrom_iff :
    (endpoint.call request params context).runFrom notes = (outcome, later)
      ↔ endpoint.Ends request params context notes outcome later := by
  unfold call
  constructor
  · intro h
    cases hpre : endpoint.preHandler with
    | none =>
        rw [hpre] at h
        exact Ends.handled hpre h
    | some preHandler =>
        rw [hpre, Run.runFrom_bind] at h
        rcases hends : (preHandler request params context).runFrom notes with ⟨_ | answer, mid⟩
        · rw [hends] at h
          cases h
          exact Ends.panicked hpre hends
        · rw [hends] at h
          cases answer with
          | none => exact Ends.passed hpre hends h
          | some response =>
              cases h
              exact Ends.prevented hpre hends
  · intro h
    cases h with
    | handled habsent hhandler =>
        rw [habsent]
        exact hhandler
    | prevented hpresent hanswer =>
        rw [hpresent, Run.runFrom_bind, hanswer]
        rfl
    | panicked hpresent hpanic => rw [hpresent, Run.runFrom_bind, hpanic]
    | passed hpresent hpass hhandler =>
        rw [hpresent, Run.runFrom_bind, hpass]
        exact hhandler

end RadixRouter.Endpoint
