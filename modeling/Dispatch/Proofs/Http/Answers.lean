/-
What the status code of an answer tells.

A request that asks for nothing back is answered with 204 exactly if it has been done: an error has a
status code of its own, and so has a body that is not understood.  What is put around the answer, the
headers that every answer has, changes neither its status nor its content, unless the request asks for the
headers alone.
-/
import Dispatch.Http.Respond

namespace Dispatch.Http

open Service

theorem status_ofDone {r : Except ServiceError Unit} : (Response.ofDone r).status = 204 ↔ r = .ok () := by
  cases r with
  | ok _ => exact iff_of_true rfl rfl
  | error e =>
      refine iff_of_false (fun h => ?_) nofun
      have hcode : e.kind.statusCode = 204 := h
      cases hkind : e.kind <;> rw [hkind] at hcode <;> cases hcode

/-- A request whose body is not understood is not answered as done. -/
theorem Request.status_of_record {α : Type} {reader : Json.Reader α} {r : Request} {status : Nat}
    (h : r.record reader = .error status) : status ≠ 204 := by
  unfold record at h
  split at h
  · cases h
    decide
  split at h
  · cases h
    decide
  cases hread : Json.readFirst reader r.body.toList with
  | ok a => rw [hread] at h; cases h
  | error fault =>
      rw [hread] at h
      cases h
      cases fault <;> decide

/-- The answer to a request that has come to its route is what is done about it there, with the headers that
every answer has. -/
theorem respond_of_route (o : Options) {r : Request} {route : Route} (hroute : Route.ofPath? r.path = some route)
    (hmethod : r.method ∈ route.methods) (hoptions : r.method ≠ "OPTIONS") (hhead : r.method ≠ "HEAD") :
    respond o r = (handle o r route).bind fun answer =>
      .done (answer.adding (sharingHeaders ++ answer.content.headers)) := by
  rw [respond, if_neg hoptions, dispatch, hroute]
  simp only [if_pos hmethod, if_neg hhead]

end Dispatch.Http
