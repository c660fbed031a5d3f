/-
One request and its reply.

An operation of the remote backend sends one request and reads the answer.  A server within
reach receives the request whatever becomes of it, and the next reply alone decides the
outcome.
-/
import AppRoutes.Http.Remote
import AppRoutes.Proofs.Action

namespace AppRoutes.Http

open AppRoutes.Action

namespace Exchange

/-- The reply to the request that the server receives after `n` more. -/
def replyAt (exchange : Exchange) (n : Nat) : Reply := exchange.replies.getD n lastReply

/-- The exchange after one more request. -/
def sent (request : Request) (exchange : Exchange) : Exchange :=
  { exchange with
    replies := exchange.replies.tail
    received := exchange.received ++ [request] }

/-- The exchange after one more announcement. -/
def announced (step : String) (exchange : Exchange) : Exchange :=
  { exchange with steps := exchange.steps ++ [step] }

@[simp]
theorem isReachable_sent (request : Request) (exchange : Exchange) :
    (exchange.sent request).isReachable = exchange.isReachable := rfl

@[simp]
theorem received_sent (request : Request) (exchange : Exchange) :
    (exchange.sent request).received = exchange.received ++ [request] := rfl

@[simp]
theorem reader_sent (request : Request) (exchange : Exchange) :
    (exchange.sent request).reader = exchange.reader := rfl

@[simp]
theorem replyAt_sent (request : Request) (exchange : Exchange) (n : Nat) :
    (exchange.sent request).replyAt n = exchange.replyAt (n + 1) := by
  show exchange.replies.tail.getD n lastReply = exchange.replies.getD (n + 1) lastReply
  cases exchange.replies <;> rfl

@[simp]
theorem isReachable_announced (step : String) (exchange : Exchange) :
    (exchange.announced step).isReachable = exchange.isReachable := rfl

@[simp]
theorem received_announced (step : String) (exchange : Exchange) :
    (exchange.announced step).received = exchange.received := rfl

@[simp]
theorem reader_announced (step : String) (exchange : Exchange) :
    (exchange.announced step).reader = exchange.reader := rfl

@[simp]
theorem replyAt_announced (step : String) (exchange : Exchange) (n : Nat) :
    (exchange.announced step).replyAt n = exchange.replyAt n := rfl

theorem runOn_send {request : Request} {exchange : Exchange}
    (hreach : exchange.isReachable = true) (hmethod : request.method ∈ standardMethods) :
    (send request).runOn exchange =
      (receive exchange.reader request (exchange.replyAt 0), exchange.sent request) := by
  have hhead : exchange.replies.headD lastReply = exchange.replyAt 0 := by
    rw [replyAt]
    cases exchange.replies <;> rfl
  have hnot : ¬ (!exchange.isReachable) = true := by
    rw [hreach]
    decide
  rw [send, runOn_bind, runOn_get]
  dsimp only
  rw [if_neg hnot, if_neg (not_not_intro hmethod), hhead]
  cases receive exchange.reader request (exchange.replyAt 0) <;> rfl

/-- A method that the protocol does not define is refused before the request is sent. -/
theorem runOn_send_of_foreign {request : Request} {exchange : Exchange}
    (hreach : exchange.isReachable = true) (hmethod : request.method ∉ standardMethods) :
    (send request).runOn exchange = (.error (foreignMethod request.method), exchange) := by
  have hnot : ¬ (!exchange.isReachable) = true := by
    rw [hreach]
    decide
  rw [send, runOn_bind, runOn_get]
  dsimp only
  rw [if_neg hnot, if_pos hmethod]
  rfl

end Exchange

theorem runOn_lift {σ α : Type} (result : Except Error α) (s : σ) :
    (lift result : Action σ α).runOn s = (result, s) := by
  cases result <;> rfl

theorem lift_bind {σ α β : Type} (first : Except Error α) (next : α → Except Error β) :
    (lift (first >>= next) : Action σ β) = lift first >>= fun a => lift (next a) := by
  cases first <;> rfl

/-- A request is sent once, and the reply to it is read. -/
theorem runOn_send_bind_lift {α : Type} (read : Answer → Except Error α) {request : Request}
    {exchange : Exchange} (hreach : exchange.isReachable = true)
    (hmethod : request.method ∈ standardMethods) :
    (do let answer ← Exchange.send request; lift (read answer) :
      Action Exchange α).runOn exchange =
      (Exchange.receive exchange.reader request (exchange.replyAt 0) >>= read,
        exchange.sent request) := by
  rw [runOn_bind, Exchange.runOn_send hreach hmethod]
  cases Exchange.receive exchange.reader request (exchange.replyAt 0) with
  | error e => rfl
  | ok answer => exact runOn_lift (read answer) _

namespace Api

variable (api : Api) (app path : String) {exchange : Exchange}

theorem runOn_fetch (hreach : exchange.isReachable = true) :
    (api.backend.fetch app path).runOn exchange =
      (Exchange.receive exchange.reader (api.fetchRequest app path) (exchange.replyAt 0) >>=
        Answer.decode routeEnvelope, exchange.sent (api.fetchRequest app path)) :=
  runOn_send_bind_lift _ hreach (by simp [fetchRequest, standardMethods])

theorem runOn_replace (route : Route) (hreach : exchange.isReachable = true) :
    (api.backend.replace app path route).runOn exchange =
      (Exchange.receive exchange.reader (api.replaceRequest app path route) (exchange.replyAt 0) >>=
        Answer.decode routeEnvelope, exchange.sent (api.replaceRequest app path route)) :=
  runOn_send_bind_lift _ hreach (by simp [replaceRequest, standardMethods])

theorem runOn_create (route : Route) (hreach : exchange.isReachable = true) :
    (api.backend.create app route).runOn exchange =
      (Exchange.receive exchange.reader (api.createRequest app route) (exchange.replyAt 0) >>=
        Answer.decode routeEnvelope, exchange.sent (api.createRequest app route)) :=
  runOn_send_bind_lift _ hreach (by simp [createRequest, standardMethods])

theorem runOn_list (hreach : exchange.isReachable = true) :
    (api.backend.list app).runOn exchange =
      (Exchange.receive exchange.reader (api.listRequest app) (exchange.replyAt 0) >>=
        Answer.decode routesEnvelope, exchange.sent (api.listRequest app)) :=
  runOn_send_bind_lift _ hreach (by simp [listRequest, standardMethods])

theorem runOn_delete (hreach : exchange.isReachable = true) :
    (api.backend.delete app path).runOn exchange =
      (Exchange.receive exchange.reader (api.deleteRequest app path) (exchange.replyAt 0) >>=
        fun answer => (fun _ => ()) <$> answer.text,
        exchange.sent (api.deleteRequest app path)) := by
  have hmethod : (api.deleteRequest app path).method ∈ standardMethods := by
    simp [deleteRequest, standardMethods]
  show (do
    let answer ← Exchange.send (api.deleteRequest app path)
    discard (lift answer.text) : Action Exchange Unit).runOn exchange = _
  rw [runOn_bind, Exchange.runOn_send hreach hmethod]
  cases Exchange.receive exchange.reader (api.deleteRequest app path) (exchange.replyAt 0) with
  | error e => rfl
  | ok answer =>
    show ((fun _ => ()) <$> (lift answer.text : Action Exchange String)).runOn _ = _
    rw [runOn_map, runOn_lift]
    rfl

theorem runOn_announce (step : String) (exchange : Exchange) :
    (api.backend.announce step).runOn exchange = (.ok (), exchange.announced step) := rfl

end Api

end AppRoutes.Http
