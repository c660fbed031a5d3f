/-
An update over the wire.

An update asks for the route once and submits the whole merged route once.  It submits only
what it has been given: if the first reply brings no route, the first request is the last.
-/
import AppRoutes.Proofs.Client
import AppRoutes.Proofs.Http.Exchange
import AppRoutes.Proofs.Http.Message

namespace AppRoutes

open AppRoutes.Action

namespace Client

/-- The submitted route does not name its path, and it always names both maps. -/
theorem keys_merged (route : Route) (delta : Option Delta) :
    some "path" ∉ (merged route delta).members.map (fun member => some member.1) ∧
      some "config" ∈ (merged route delta).members.map (fun member => some member.1) ∧
      some "headers" ∈ (merged route delta).members.map (fun member => some member.1) := by
  have hpath : (merged route delta).member .path = [] := by cases delta <;> rfl
  have hconfig : (merged route delta).member .config ≠ [] := by cases delta <;> exact nofun
  have hheaders : (merged route delta).member .headers ≠ [] := by cases delta <;> exact nofun
  exact ⟨fun h => (Route.name_mem_keys _ .path).mp h hpath,
    (Route.name_mem_keys _ .config).mpr hconfig, (Route.name_mem_keys _ .headers).mpr hheaders⟩

end Client

namespace Http
namespace Api

variable (api : Api) (app path : String) (delta : Option Delta)

theorem runOn_submitMerged (route : Route) {exchange : Exchange}
    (hreach : exchange.isReachable = true) :
    (Client.submitMerged api.backend app path delta route).runOn exchange =
      ((Exchange.receive exchange.reader (api.replaceRequest app path (Client.merged route delta))
            (exchange.replyAt 0) >>= Answer.decode routeEnvelope).mapError
          (Error.surfaceOnly [.badRequest, .notFound, .conflict]),
        (exchange.announced ("submitting merged route " ++ app ++ path)).sent
          (api.replaceRequest app path (Client.merged route delta))) := by
  rw [Client.submitMerged,
    runOn_bind_of_ok (api.runOn_announce ("submitting merged route " ++ app ++ path) exchange),
    runOn_surfacing,
    runOn_replace api app path _ ((Exchange.isReachable_announced _ exchange).trans hreach),
    Exchange.replyAt_announced, Exchange.reader_announced]

theorem fetch_eq_ok_iff {exchange : Exchange} {route : Route} :
    (Exchange.receive exchange.reader (api.fetchRequest app path) (exchange.replyAt 0) >>=
      Answer.decode routeEnvelope) = .ok route ↔
        (exchange.replyAt 0).Brings exchange.reader route := by
  have hmethod : (api.fetchRequest app path).method ≠ "HEAD" := by simp [fetchRequest]
  exact receive_bind_decode_eq_ok hmethod

theorem runOn_patch_eq {exchange : Exchange} (hpath : path ≠ "")
    (hreach : exchange.isReachable = true) :
    (Client.patch api.backend app path delta).runOn exchange =
      match Exchange.receive exchange.reader (api.fetchRequest app path) (exchange.replyAt 0) >>=
          Answer.decode routeEnvelope with
      | .ok route =>
        (Client.submitMerged api.backend app path delta route).runOn
          (exchange.sent (api.fetchRequest app path))
      | .error e =>
        (.error (e.surfaceOnly [.notFound]), exchange.sent (api.fetchRequest app path)) := by
  have hempty : ¬ path.isEmpty = true := fun h => hpath (String.isEmpty_iff.mp h)
  rw [Client.runOn_patch, if_neg hempty, runOn_fetch api app path hreach]
  cases Exchange.receive exchange.reader (api.fetchRequest app path) (exchange.replyAt 0) >>=
    Answer.decode routeEnvelope <;> rfl

/-- Without a route from the first reply, the question was the last request. -/
theorem runOn_patch_of_not_brings {exchange : Exchange} (hpath : path ≠ "")
    (hreach : exchange.isReachable = true)
    (hnone : ∀ route, ¬ (exchange.replyAt 0).Brings exchange.reader route) :
    ∃ e : Error, e.category ≠ .validation ∧
      (Client.patch api.backend app path delta).runOn exchange =
        (.error (e.surfaceOnly [.notFound]), exchange.sent (api.fetchRequest app path)) := by
  have hblame := blameless_receive_bind_decode routeEnvelope exchange.reader
    (api.fetchRequest app path) (exchange.replyAt 0)
  rw [runOn_patch_eq api app path delta hpath hreach]
  cases hfetched : Exchange.receive exchange.reader (api.fetchRequest app path)
      (exchange.replyAt 0) >>= Answer.decode routeEnvelope with
  | error e => exact ⟨e, hblame e hfetched, rfl⟩
  | ok route => exact absurd ((api.fetch_eq_ok_iff app path).mp hfetched) (hnone route)

/-- With a route from the first reply, the merged route is submitted and nothing else is
done. -/
theorem runOn_patch_of_brings {exchange : Exchange} {route : Route} (hpath : path ≠ "")
    (hreach : exchange.isReachable = true)
    (hroute : (exchange.replyAt 0).Brings exchange.reader route) :
    (Client.patch api.backend app path delta).runOn exchange =
      ((Exchange.receive exchange.reader (api.replaceRequest app path (Client.merged route delta))
            (exchange.replyAt 1) >>= Answer.decode routeEnvelope).mapError
          (Error.surfaceOnly [.badRequest, .notFound, .conflict]),
        ((exchange.sent (api.fetchRequest app path)).announced
            ("submitting merged route " ++ app ++ path)).sent
          (api.replaceRequest app path (Client.merged route delta))) := by
  have hreach' : (exchange.sent (api.fetchRequest app path)).isReachable = true :=
    (Exchange.isReachable_sent _ exchange).trans hreach
  rw [runOn_patch_eq api app path delta hpath hreach, (api.fetch_eq_ok_iff app path).mpr hroute]
  dsimp only
  rw [runOn_submitMerged api app path delta route hreach', Exchange.replyAt_sent,
    Exchange.reader_sent]

theorem blameless_patch {exchange : Exchange} (hpath : path ≠ "")
    (hreach : exchange.isReachable = true) :
    Blameless ((Client.patch api.backend app path delta).runOn exchange).1 := by
  by_cases hbrings : ∃ route, (exchange.replyAt 0).Brings exchange.reader route
  · obtain ⟨route, hroute⟩ := hbrings
    rw [runOn_patch_of_brings api app path delta hpath hreach hroute]
    exact blameless_surfaceOnly (blameless_receive_bind_decode routeEnvelope _ _ _) _
  · obtain ⟨e, hblame, hrun⟩ := runOn_patch_of_not_brings api app path delta hpath hreach
      (fun route hroute => hbrings ⟨route, hroute⟩)
    rw [hrun]
    exact blameless_error (Error.category_surfaceOnly_ne_validation hblame _)

/-- Whatever is answered, the question comes first. -/
theorem received_patch {exchange : Exchange} (hpath : path ≠ "")
    (hreach : exchange.isReachable = true) :
    ∃ rest, ((Client.patch api.backend app path delta).runOn exchange).2.received =
      exchange.received ++ api.fetchRequest app path :: rest := by
  by_cases hbrings : ∃ route, (exchange.replyAt 0).Brings exchange.reader route
  · obtain ⟨route, hroute⟩ := hbrings
    rw [runOn_patch_of_brings api app path delta hpath hreach hroute]
    exact ⟨[api.replaceRequest app path (Client.merged route delta)], List.append_assoc _ _ _⟩
  · obtain ⟨e, -, hrun⟩ := runOn_patch_of_not_brings api app path delta hpath hreach
      (fun route hroute => hbrings ⟨route, hroute⟩)
    rw [hrun]
    exact ⟨[], rfl⟩

/-- An update asks for the route and, exactly if the reply brings one, submits the route with
the delta applied; it answers exactly with what the second reply brings. -/
theorem patch_asks_then_submits (exchange : Exchange) (hpath : path ≠ "")
    (hreach : exchange.isReachable = true) :
    ∃ ask : Request,
      ask.Targets "GET" (api.routeUrl app path) ∧ ask.body = ByteArray.empty ∧
      ((∀ route, ¬ (exchange.replyAt 0).Brings exchange.reader route) →
        ((Client.patch api.backend app path delta).runOn exchange).2.received =
          exchange.received ++ [ask] ∧
        ∃ e, ((Client.patch api.backend app path delta).runOn exchange).1 = .error e ∧
          (e.category = .notFound ∨ e.category = .unexpected)) ∧
      ∀ route, (exchange.replyAt 0).Brings exchange.reader route →
        ∃ submit : Request,
          submit.Targets "PATCH" (api.routeUrl app path) ∧
          submit.Carries (Client.merged route delta) ∧
          (∃ keys, submit.Lists keys ∧
            some "path" ∉ keys ∧ some "config" ∈ keys ∧ some "headers" ∈ keys) ∧
          ((Client.patch api.backend app path delta).runOn exchange).2.received =
            exchange.received ++ [ask, submit] ∧
          ∀ stored,
            ((Client.patch api.backend app path delta).runOn exchange).1 = .ok stored ↔
              (exchange.replyAt 1).Brings exchange.reader stored := by
  refine ⟨api.fetchRequest app path, ⟨rfl, rfl⟩, rfl, fun hnone => ?_, fun route hroute => ?_⟩
  · obtain ⟨e, hblame, hrun⟩ :=
      runOn_patch_of_not_brings api app path delta hpath hreach hnone
    have hcategory := Error.category_surfaceOnly hblame [.notFound]
    rw [List.mem_singleton] at hcategory
    rw [hrun]
    exact ⟨rfl, _, rfl, hcategory⟩
  · have hbody := body_replaceRequest api app path (Client.merged route delta)
    have hmethod : (api.replaceRequest app path (Client.merged route delta)).method ≠ "HEAD" := by
      simp [replaceRequest]
    refine ⟨api.replaceRequest app path (Client.merged route delta), ⟨rfl, rfl⟩,
      carries_body hbody, ⟨_, lists_body hbody, Client.keys_merged route delta⟩, ?_⟩
    rw [runOn_patch_of_brings api app path delta hpath hreach hroute]
    constructor
    · rw [Exchange.received_sent, Exchange.received_announced, Exchange.received_sent,
        List.append_assoc]
      rfl
    · intro stored
      rw [mapError_eq_ok, receive_bind_decode_eq_ok hmethod]

/-- A server that answers the question with a route gets that route without a change. -/
theorem patch_asks_then_submits_bare :
    "/hello" ≠ "" ∧
      ((Client.patch initial.backend "app" "/hello" none).runOn
        { replies := [.answer 200 ({ path := "/hello" } : Route).body.toUTF8] }).2.received.length =
          2 := by
  have hpath : "/hello" ≠ "" := by decide
  have hsize : ({ path := "/hello" } : Route).body.utf8ByteSize ≤ ({} : TextReader).limit := by
    decide
  obtain ⟨ask, _, _, _, hsubmits⟩ := patch_asks_then_submits initial "app" "/hello" none
    { replies := [.answer 200 ({ path := "/hello" } : Route).body.toUTF8] } hpath rfl
  obtain ⟨submit, _, _, _, hreceived, _⟩ := hsubmits { path := "/hello" } (brings_body hsize)
  refine ⟨hpath, ?_⟩
  rw [hreceived]
  rfl

/-- A body that holds a route is not enough.  Nothing is submitted if the body is longer than the
library reads, or if it comes with a status that has no content. -/
theorem unread_route_is_not_submitted :
    (routeEnvelope.decodeText (spaced textLimit ({ path := "/hello" } : Route).body) =
        .ok { path := "/hello" } ∧
      ((Client.patch initial.backend "app" "/hello" none).runOn
        { replies := [.answer 200
            (spaced textLimit ({ path := "/hello" } : Route).body).toUTF8] }).2.received =
          [initial.fetchRequest "app" "/hello"]) ∧
      isSuccess 204 = true ∧
      routeEnvelope.decodeText ({ path := "/hello" } : Route).body = .ok { path := "/hello" } ∧
      ((Client.patch initial.backend "app" "/hello" none).runOn
        { replies := [.answer 204 ({ path := "/hello" } : Route).body.toUTF8] }).2.received =
          [initial.fetchRequest "app" "/hello"] := by
  have hpath : "/hello" ≠ "" := by decide
  have hroute : routeEnvelope.decodeText ({ path := "/hello" } : Route).body =
      .ok { path := "/hello" } := decodeText_routeValue .indented _
  have hlong : ({} : TextReader).limit <
      (spaced textLimit ({ path := "/hello" } : Route).body).toUTF8.size := by
    have hbody : 0 < ({ path := "/hello" } : Route).body.utf8ByteSize := by decide
    show textLimit < (spaced textLimit ({ path := "/hello" } : Route).body).utf8ByteSize
    rw [utf8ByteSize_spaced]
    omega
  have hask : ∀ reply : Reply, (∀ route, ¬ reply.Brings {} route) →
      ((Client.patch initial.backend "app" "/hello" none).runOn
        { replies := [reply] }).2.received = [initial.fetchRequest "app" "/hello"] := by
    intro reply hnone
    obtain ⟨_, _, hrun⟩ := @runOn_patch_of_not_brings initial "app" "/hello" none
      { replies := [reply] } hpath rfl hnone
    rw [hrun]
    rfl
  refine ⟨⟨(decodeText_spaced routeEnvelope _ _).trans hroute, ?_⟩, rfl, hroute, ?_⟩
  · exact hask _ (not_brings_of_limit_lt hlong)
  · refine hask _ ?_
    rintro route ⟨_, _, _, _, ⟨⟩, _, hcontent, _⟩
    exact hcontent rfl

end Api
end Http
end AppRoutes
