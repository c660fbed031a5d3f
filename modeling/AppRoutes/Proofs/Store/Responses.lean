/-
Canned responses.

A response is kept under the text of its application and its path together, so the answer of an
endpoint is the last response whose two texts join to the same one.  Two pairs share a response
exactly if they do so.  Nothing but setting a response changes one, which is why the history of
a run is seen here through the responses that it sets.
-/
import AppRoutes.Proofs.Store.Run

namespace AppRoutes
namespace Store

open AppRoutes.Action

theorem leaves_enter_bind {α π : Type} {part : Store → π} {operation : Operation}
    {next : Action Store α} (hcalled : ∀ store : Store, part (store.called operation) = part store)
    (h : Leaves part next) : Leaves part (do enter operation; next) := by
  intro store
  rw [runOn_enter_bind]
  split
  · exact hcalled store
  · exact (h _).trans (hcalled store)

theorem leaves_responses_look {α : Type} (view : Directory → Except Error α) :
    Leaves responses (look view) := by
  intro store
  rw [runOn_look]

theorem leaves_responses_change {α : Type} (step : Directory → Except Error α × Directory) :
    Leaves responses (change step) := by
  intro store
  rw [runOn_change]

theorem leaves_responses_submit {α : Type} (operation : Operation) (app path : String)
    (route : Route) (step : Directory → Except Error α × Directory) :
    Leaves responses (do enter operation; record operation app path route; change step) :=
  leaves_enter_bind (fun _ => rfl) fun store =>
    leaves_responses_change step (store.submitted ⟨operation, app, path, route⟩)

/-- No operation touches the responses, not even the one that answers with them. -/
theorem leaves_responses : backend.Leaves responses where
  fetch app path := leaves_enter_bind (fun _ => rfl) (leaves_responses_look (·.fetch app path))
  replace app path route :=
    leaves_responses_submit .replace app path route (·.replace app path route)
  create app route := leaves_responses_submit .create app "" route (·.create app route)
  list app := leaves_enter_bind (fun _ => rfl) (leaves_responses_look (·.list app))
  delete _ _ := leaves_enter_bind (fun _ => rfl) (leaves_responses_change _)
  invoke _ _ _ := leaves_enter_bind (fun _ => rfl) (fun _ => rfl)
  announce _ _ := rfl

theorem Call.leaves_responses (call : Call) : Leaves responses call.run := by
  cases call with
  | direct call => exact Store.leaves_responses.call call
  | client call => exact Client.leaves_call Store.leaves_responses call

/-- A response as it is set. -/
structure Response where
  app : String
  path : String
  body : ByteArray

namespace Response

/-- The text that the response is kept under. -/
def key (response : Response) : String := responseKey response.app response.path

def IsFor (response : Response) (app path : String) : Prop :=
  response.app = app ∧ response.path = path

instance (response : Response) (app path : String) : Decidable (response.IsFor app path) :=
  inferInstanceAs (Decidable (_ ∧ _))

theorem IsFor.key_eq {response : Response} {app path : String} (h : response.IsFor app path) :
    response.key = responseKey app path := by
  rw [key, h.1, h.2]

end Response

def Step.response? : Step → Option Response
  | .addResponse app path body => some ⟨app, path, body⟩
  | .addApp .. | .addRoute .. | .fail .. | .call .. => none

/-- The responses that a run sets, in order. -/
def responsesSet (steps : List Step) : List Response := steps.filterMap Step.response?

/-- The last response that a run sets for an application and a path. -/
def lastOwn? (steps : List Step) (app path : String) : Option Response :=
  ((responsesSet steps).filter (fun response => response.IsFor app path)).getLast?

/-- The last response that a run sets for any pair that joins to a text. -/
def lastJoined? (steps : List Step) (text : String) : Option Response :=
  ((responsesSet steps).filter (fun response => response.key = text)).getLast?

theorem get?_responses_perform (step : Step) (store : Store) (text : String) :
    (step.perform store).2.responses.get? text =
      ((step.response?.filter (fun response => response.key = text)).map Response.body).or
        (store.responses.get? text) := by
  cases step with
  | addApp | addRoute | fail => rfl
  | call request =>
    exact congrArg (SortedMap.get? · text) (request.leaves_responses store)
  | addResponse app path body =>
    refine (SortedMap.get?_insert store.responses _ body text).trans ?_
    by_cases hkey : responseKey app path = text
    · simp [Step.response?, Response.key, Option.filter, hkey]
    · simp [Step.response?, Response.key, Option.filter, hkey]

theorem lastJoined?_cons (step : Step) (rest : List Step) (text : String) :
    lastJoined? (step :: rest) text =
      (lastJoined? rest text).or (step.response?.filter (fun response => response.key = text)) := by
  unfold lastJoined? responsesSet
  cases hstep : step.response? with
  | none =>
    rw [List.filterMap_cons_none hstep]
    exact Option.or_none.symm
  | some response =>
    rw [List.filterMap_cons_some hstep, List.filter_cons]
    by_cases hkey : response.key = text
    · rw [if_pos (decide_eq_true hkey), List.getLast?_cons,
        Option.filter_some_pos (by simpa using hkey)]
      cases (List.filter _ (List.filterMap Step.response? rest)).getLast? <;> rfl
    · rw [if_neg (by simpa using hkey), Option.filter_some_neg (by simpa using hkey)]
      exact Option.or_none.symm

/-- A run that starts with some responses ends with those that it has not set anew. -/
theorem get?_responses_after (steps : List Step) (store : Store) (text : String) :
    (store.after steps).responses.get? text =
      ((lastJoined? steps text).map Response.body).or (store.responses.get? text) := by
  induction steps generalizing store with
  | nil => rfl
  | cons step rest ih =>
    rw [after, ih, get?_responses_perform, lastJoined?_cons, Option.map_or, Option.or_assoc]

/-! ## Answers -/

/-- Where nothing is told to fail, an endpoint answers with what is kept under its text. -/
theorem invoke_eq {store : Store} (h : store.failure? .invoke = none) (app path : String)
    (invocation : Invocation) :
    ((backend.invoke app path invocation).runOn store).1 =
      .ok ((store.responses.get? (responseKey app path)).getD ByteArray.empty) := by
  rw [runOn_invoke, h]

theorem lastOwn?_eq (steps : List Step) (app path : String) :
    lastOwn? steps app path =
      (((responsesSet steps).filter (fun response => response.key = responseKey app path)).filter
        (fun response => response.IsFor app path)).getLast? := by
  have hsame : ∀ response : Response, (decide (response.IsFor app path) &&
      decide (response.key = responseKey app path)) = decide (response.IsFor app path) := by
    intro response
    by_cases h : response.IsFor app path
    · simp [h, h.key_eq]
    · simp [h]
  rw [lastOwn?, List.filter_filter]
  simp only [hsame]

/-- Of the responses under a pair's text the last one is the pair's own last one exactly if it
was set for the pair. -/
theorem lastJoined?_eq_lastOwn?_iff (steps : List Step) (app path : String) :
    lastJoined? steps (responseKey app path) = lastOwn? steps app path ↔
      ∀ response, lastJoined? steps (responseKey app path) = some response →
        response.IsFor app path := by
  constructor
  · intro h response hlast
    rw [h, lastOwn?] at hlast
    simpa using (List.mem_filter.mp (List.mem_of_getLast? hlast)).2
  · intro h
    rw [lastOwn?_eq]
    cases hlast : lastJoined? steps (responseKey app path) with
    | none =>
      rw [List.getLast?_eq_none_iff.mp hlast]
      rfl
    | some response =>
      obtain ⟨earlier, hearlier⟩ := List.getLast?_eq_some_iff.mp hlast
      have hkeeps : [response].filter (fun response => response.IsFor app path) = [response] := by
        simp [h response hlast]
      rw [hearlier, List.filter_append, hkeeps]
      exact List.getLast?_concat.symm

/-- The endpoint of a route answers with the last response for a pair that joins to the same
text, which is its own last response exactly if that one was set for it.  So a response reaches
the endpoint of every pair with its text, whatever stood there, and no other. -/
theorem invoke_answers_last_joined (steps : List Step) (app path : String)
    (invocation : Invocation) (hinvoke : (({} : Store).after steps).failure? .invoke = none) :
    let store := ({} : Store).after steps
    let answer := ((backend.invoke app path invocation).runOn store).1
    answer =
        .ok (((lastJoined? steps (app ++ path)).map Response.body).getD ByteArray.empty) ∧
      (lastJoined? steps (app ++ path) = lastOwn? steps app path ↔
        ∀ response, lastJoined? steps (app ++ path) = some response →
          response.app = app ∧ response.path = path) ∧
      ∀ other otherPath body,
        ((backend.invoke app path invocation).runOn (store.addResponse other otherPath body)).1 =
          if other ++ otherPath = app ++ path then .ok body else answer := by
  intro store answer
  have hanswer : answer = .ok ((store.responses.get? (app ++ path)).getD ByteArray.empty) :=
    invoke_eq hinvoke app path invocation
  refine ⟨?_, lastJoined?_eq_lastOwn?_iff steps app path, fun other otherPath body => ?_⟩
  · rw [hanswer, get?_responses_after, SortedMap.get?_empty, Option.or_none]
  · have hset : (store.addResponse other otherPath body).failure? .invoke = none := hinvoke
    rw [invoke_eq hset, addResponse, SortedMap.get?_insert, hanswer, responseKey, responseKey]
    by_cases hkey : other ++ otherPath = app ++ path
    · rw [if_pos hkey, if_pos hkey]
      rfl
    · rw [if_neg hkey, if_neg hkey]

/-- The body that is set last for a pair is the answer, with another pair set in between. -/
theorem invoke_answers_last_joined_again :
    let steps : List Step :=
      [.addResponse "app" "/hello" ⟨#[1]⟩, .addResponse "app" "/help" ⟨#[2]⟩,
        .addResponse "app" "/hello" ⟨#[3]⟩]
    (({} : Store).after steps).failure? .invoke = none ∧
      ((backend.invoke "app" "/hello" (.ofMethod none none)).runOn
        (({} : Store).after steps)).1 = .ok ⟨#[3]⟩ := by
  intro steps
  have hinvoke : (({} : Store).after steps).failure? .invoke = none := rfl
  exact ⟨hinvoke, (invoke_answers_last_joined steps "app" "/hello" _ hinvoke).1⟩

/-- A slash more in the name of the application takes the response of another one. -/
theorem joined_text_shares_response :
    let steps : List Step :=
      [.addResponse "app" "/v1/hello" ⟨#[1]⟩, .addResponse "app/v1" "/hello" ⟨#[2, 2]⟩]
    (({} : Store).after steps).failure? .invoke = none ∧
      lastOwn? steps "app" "/v1/hello" = some ⟨"app", "/v1/hello", ⟨#[1]⟩⟩ ∧
      ((backend.invoke "app" "/v1/hello" (.ofMethod none none)).runOn
        (({} : Store).after steps)).1 ≠ .ok ⟨#[1]⟩ := by
  intro steps
  have hanswer : ((backend.invoke "app" "/v1/hello" (.ofMethod none none)).runOn
      (({} : Store).after steps)).1 = .ok ⟨#[2, 2]⟩ := rfl
  refine ⟨rfl, rfl, fun h => ?_⟩
  rw [hanswer] at h
  exact absurd (congrArg ByteArray.size (Except.ok.inj h)) (by decide)

end Store
end AppRoutes
