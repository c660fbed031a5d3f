/-
The operations of a client over the wire, as equations.

Once its arguments are checked, an operation of one step sends one request, reads the reply to
it and narrows the error.  An update takes two such steps and has a module of its own.
-/
import AppRoutes.Proofs.Client
import AppRoutes.Proofs.Http.Exchange
import AppRoutes.Proofs.Http.Message

namespace AppRoutes.Http

open AppRoutes.Action

/-- What reading a body comes to that is only asked to be a text. -/
theorem map_text_eq_bind (answer : Answer) :
    (fun _ => ()) <$> answer.text = answer.text >>= fun _ => .ok () := by
  cases answer.text <;> rfl

namespace Api

variable (api : Api) (app path : String) {exchange : Exchange}

theorem runOn_client_get (hpath : path ≠ "") (hreach : exchange.isReachable = true) :
    (Client.get api.backend app path).runOn exchange =
      ((Exchange.receive exchange.reader (api.fetchRequest app path) (exchange.replyAt 0) >>=
          Answer.decode routeEnvelope).mapError (Error.surfaceOnly [.notFound]),
        exchange.sent (api.fetchRequest app path)) := by
  rw [Client.runOn_get, if_neg (Client.not_isEmpty_of_ne hpath), runOn_surfacing,
    runOn_fetch api app path hreach]

theorem runOn_client_list (hreach : exchange.isReachable = true) :
    (Client.list api.backend app).runOn exchange =
      ((Exchange.receive exchange.reader (api.listRequest app) (exchange.replyAt 0) >>=
          Answer.decode routesEnvelope).mapError (Error.surfaceOnly [.notFound]),
        exchange.sent (api.listRequest app)) := by
  rw [Client.list, runOn_surfacing, runOn_list api app hreach]

theorem runOn_client_delete (hpath : path ≠ "") (hreach : exchange.isReachable = true) :
    (Client.delete api.backend app path).runOn exchange =
      ((Exchange.receive exchange.reader (api.deleteRequest app path) (exchange.replyAt 0) >>=
          fun answer => answer.text >>= fun _ => .ok ()).mapError (Error.surfaceOnly [.notFound]),
        exchange.sent (api.deleteRequest app path)) := by
  rw [Client.runOn_delete, if_neg (Client.not_isEmpty_of_ne hpath), runOn_surfacing,
    runOn_delete api app path hreach]
  simp only [map_text_eq_bind]

theorem runOn_submitNew (delta : Delta) (hreach : exchange.isReachable = true) :
    (Client.submitNew api.backend app path delta).runOn exchange =
      ((Exchange.receive exchange.reader (api.createRequest app (Route.build path delta))
            (exchange.replyAt 0) >>= Answer.decode routeEnvelope).mapError
          (Error.surfaceOnly [.badRequest, .conflict]),
        (exchange.announced ("creating route " ++ app ++ path ++ " with " ++
            (Route.build path delta).image)).sent
          (api.createRequest app (Route.build path delta))) := by
  rw [Client.submitNew, runOn_bind_of_ok (runOn_announce api _ exchange), runOn_surfacing,
    runOn_create api app _ ((Exchange.isReachable_announced _ exchange).trans hreach),
    Exchange.replyAt_announced, Exchange.reader_announced]

theorem blameless_submitNew (delta : Delta) (hreach : exchange.isReachable = true) :
    Blameless ((Client.submitNew api.backend app path delta).runOn exchange).1 := by
  rw [runOn_submitNew api app path delta hreach]
  exact blameless_surfaceOnly (blameless_receive_bind_decode routeEnvelope _ _ _) _

theorem received_submitNew (delta : Delta) (hreach : exchange.isReachable = true) :
    ((Client.submitNew api.backend app path delta).runOn exchange).2.received =
      exchange.received ++ [api.createRequest app (Route.build path delta)] := by
  rw [runOn_submitNew api app path delta hreach]
  rfl

/-- A call that the checks refuse is not sent. -/
theorem runOn_call_of_error (hpath : path ≠ "") {invocation : Invocation} {invalid : Invalid}
    (hcheck : (callRequest (api.callUrl app path) invocation).check = .error invalid) :
    (Client.call api.backend app path invocation).runOn exchange =
      (.error (invalidCall invalid), exchange) := by
  rw [Client.runOn_call, if_neg (Client.not_isEmpty_of_ne hpath), runOn_surfacing]
  unfold backend
  dsimp only
  rw [hcheck]
  rfl

theorem runOn_call_of_ok (hpath : path ≠ "") {invocation : Invocation}
    (hcheck : (callRequest (api.callUrl app path) invocation).check = .ok ()) :
    (Client.call api.backend app path invocation).runOn exchange =
      ((Answer.body <$> Exchange.send (callRequest (api.callUrl app path) invocation) :
        Action Exchange ByteArray).surfacing []).runOn exchange := by
  rw [Client.runOn_call, if_neg (Client.not_isEmpty_of_ne hpath)]
  unfold backend
  dsimp only
  rw [hcheck]
  rfl

/-- A call that passes the checks is one request to the URL of the route. -/
theorem received_call (hpath : path ≠ "") (hreach : exchange.isReachable = true)
    {invocation : Invocation}
    (hcheck : (callRequest (api.callUrl app path) invocation).check = .ok ())
    (hmethod : invocation.method ∈ standardMethods) :
    ((Client.call api.backend app path invocation).runOn exchange).2.received =
      exchange.received ++ [callRequest (api.callUrl app path) invocation] := by
  rw [runOn_call_of_ok api app path hpath hcheck, runOn_surfacing, runOn_map,
    Exchange.runOn_send hreach hmethod]
  rfl

end Api
end AppRoutes.Http
