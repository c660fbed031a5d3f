/-
A store behind the wire.

A server that answers every request with the wire form of what a store makes of the same
call is not to be told from the store: a client gets the same answers and errors from both, as
long as the library reads the replies.  At the first reply that is longer than it reads, the
operation breaks off.  `Agree` relates three runs of one operation, over the store, over the
watched store and over the exchange, and is carried through the parts of a client's operation.
The visits of the watched store say which replies the exchange has to hold and which requests it
receives.
-/
import Mathlib.Data.List.Forall2
import AppRoutes.Proofs.Http.Exchange
import AppRoutes.Proofs.Http.WireForm
import AppRoutes.Proofs.Store.Visits

namespace AppRoutes.Http

open AppRoutes.Action

/-- The request that a call is sent as. -/
def Api.Asks (api : Api) : Backend.Call → Request → Prop
  | .fetch app path, request => request.Targets "GET" (api.routeUrl app path)
  | .replace app path _, request => request.Targets "PATCH" (api.routeUrl app path)
  | .create app _, request => request.Targets "POST" (api.routesUrl app)
  | .list app, request => request.Targets "GET" (api.routesUrl app)
  | .delete app path, request => request.Targets "DELETE" (api.routeUrl app path)
  | .invoke .., _ => False

/-- The request is the visit's call, and it carries each route that the visit submitted. -/
def Api.Sends (api : Api) (visit : Visit) (request : Request) : Prop :=
  api.Asks visit.call request ∧ ∀ submission ∈ visit.submitted, request.Carries submission.route

/-- The reply that comes after `n` more is no longer than the library reads. -/
def Exchange.Fits (exchange : Exchange) (n : Nat) : Prop :=
  (exchange.replyAt n).size ≤ exchange.reader.limit

/-- From one exchange to another the server has received the requests of the visits. -/
def Receives (api : Api) (visits : List Visit) (before after : Exchange) : Prop :=
  ∃ requests, after.received = before.received ++ requests ∧
    List.Forall₂ api.Sends visits requests

/-- The server has received the requests of the visits, and has used up one reply for each of
them. -/
structure Follows (api : Api) (visits : List Visit) (before after : Exchange) : Prop where
  isReachable : after.isReachable = true
  reader : after.reader = before.reader
  replyAt : ∀ n, after.replyAt n = before.replyAt (visits.length + n)
  received : Receives api visits before after

/-- What a run comes to over an exchange that tells the visits.  It ends as `outcome` says if the
library reads all the replies, and otherwise breaks off at the first one that it does not read. -/
structure Tracks {α : Type} (api : Api) (visits : List Visit) (outcome : Except Error α)
    (before : Exchange) (run : Except Error α × Exchange) : Prop where
  ends : (∀ i < visits.length, before.Fits i) → run.1 = outcome ∧ Follows api visits before run.2
  breaksOff : ∀ i < visits.length, (∀ j < i, before.Fits j) → ¬ before.Fits i →
    run.1 = .error Exchange.transportFailure ∧ Receives api (visits.take (i + 1)) before run.2

section

variable {api : Api} {first second : List Visit} {before middle after : Exchange}

theorem Receives.trans (h : Receives api first before middle)
    (h' : Receives api second middle after) : Receives api (first ++ second) before after := by
  obtain ⟨requests, hrequests, hsends⟩ := h
  obtain ⟨requests', hrequests', hsends'⟩ := h'
  refine ⟨requests ++ requests', ?_, List.rel_append hsends hsends'⟩
  rw [hrequests', hrequests, List.append_assoc]

theorem Follows.refl (hreach : before.isReachable = true) : Follows api [] before before where
  isReachable := hreach
  reader := rfl
  replyAt n := by rw [List.length_nil, Nat.zero_add]
  received := ⟨[], (List.append_nil _).symm, .nil⟩

theorem Follows.trans (h : Follows api first before middle)
    (h' : Follows api second middle after) : Follows api (first ++ second) before after where
  isReachable := h'.isReachable
  reader := h'.reader.trans h.reader
  replyAt n := by rw [h'.replyAt, h.replyAt, List.length_append, Nat.add_assoc]
  received := h.received.trans h'.received

/-- What is done to an outcome afterwards is done to both, as long as a failure of the connection
stays one. -/
theorem Tracks.finish {α β : Type} {outcome : Except Error α} {run : Except Error α × Exchange}
    {visits : List Visit} (finish : Except Error α → Except Error β)
    (h : Tracks api visits outcome before run)
    (hfinish : finish (.error Exchange.transportFailure) = .error Exchange.transportFailure) :
    Tracks api visits (finish outcome) before (finish run.1, run.2) where
  ends hfits := by
    obtain ⟨hresult, hfollows⟩ := h.ends hfits
    exact ⟨congrArg finish hresult, hfollows⟩
  breaksOff i hi hbefore hlong := by
    obtain ⟨hresult, hreceives⟩ := h.breaksOff i hi hbefore hlong
    exact ⟨(congrArg finish hresult).trans hfinish, hreceives⟩

end

section

variable {α β : Type} {api : Api} {plain : Action Store α}
  {watched : Action (Store × List Visit) α} {remote : Action Exchange α}

end

section

variable (api : Api) (app path : String)

end

end AppRoutes.Http
