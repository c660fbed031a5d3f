/-
What requests carry and what replies bring.

A request carries a route if its body is the route in its envelope, and a reply brings one
if it is a success whose content is.  Any other reply is an error, and never one that
blames the arguments.
-/
import AppRoutes.Http.Remote
import AppRoutes.Proofs.Error
import AppRoutes.Proofs.Outcome
import AppRoutes.Proofs.Route.RoundTrip

namespace AppRoutes

open Json

namespace Http

theorem fromUTF8?_toUTF8 (text : String) : String.fromUTF8? text.toUTF8 = some text := by
  have hvalid : text.toUTF8.IsValidUTF8 := text.isValidUTF8
  rw [String.fromUTF8?, dif_pos hvalid]
  rfl

theorem isSome_fromUTF8? (body : ByteArray) :
    (String.fromUTF8? body).isSome = true ↔ body.IsValidUTF8 := by
  unfold String.fromUTF8?
  split <;> simp_all

/-- The request goes to a URL with a method. -/
def Request.Targets (request : Request) (method url : String) : Prop :=
  request.method = method ∧ request.url = url

/-- The body of the request holds a route in its envelope. -/
def Request.Carries (request : Request) (route : Route) : Prop :=
  ∃ text, String.fromUTF8? request.body = some text ∧ routeEnvelope.decodeText text = .ok route

/-- The body of the request is an object with the single member `route`, an object in which
`keys` are the names of the members. -/
def Request.Lists (request : Request) (keys : List (Option String)) : Prop :=
  ∃ text members, String.fromUTF8? request.body = some text ∧
    Document.read text = ⟨.object [(some "route", .object members)], false⟩ ∧
    members.map (·.1) = keys

theorem carries_body {request : Request} {route : Route}
    (h : request.body = route.body.toUTF8) : request.Carries route :=
  ⟨route.body, h ▸ fromUTF8?_toUTF8 route.body, decodeText_routeValue .indented route⟩

theorem lists_body {request : Request} {route : Route} (h : request.body = route.body.toUTF8) :
    request.Lists (route.members.map (fun member => some member.1)) := by
  refine ⟨route.body, memberNodes route.members, h ▸ fromUTF8?_toUTF8 route.body,
    read_render .indented (routeValue route), ?_⟩
  rw [memberNodes_eq_map, List.map_map]
  exact List.map_congr_left (fun (_, _) _ => rfl)

theorem Api.body_replaceRequest (api : Api) (app path : String) (route : Route) :
    (api.replaceRequest app path route).body = route.body.toUTF8 := by
  rw [replaceRequest]

theorem Api.body_createRequest (api : Api) (app : String) (route : Route) :
    (api.createRequest app route).body = route.body.toUTF8 := by
  rw [createRequest]

namespace TextReader

variable (reader : TextReader) {body : ByteArray} (isText : Bool)

/-- The body is read as a text. -/
def Reads (body : ByteArray) (isText : Bool) : Prop :=
  body.size ≤ reader.limit ∧ (isText = true ∨ body.IsValidUTF8)

theorem read?_of_limit_lt (h : reader.limit < body.size) : reader.read? body isText = none :=
  if_pos h

/-- A text within the limit is read as it is, whatever its content type is. -/
theorem read?_toUTF8 {text : String} (h : text.utf8ByteSize ≤ reader.limit) :
    reader.read? text.toUTF8 isText = some text := by
  have hsize : ¬ reader.limit < text.toUTF8.size := Nat.not_lt.mpr h
  rw [read?, if_neg hsize, fromUTF8?_toUTF8]

theorem read?_empty : reader.read? ByteArray.empty isText = some "" :=
  @read?_toUTF8 reader isText "" (Nat.zero_le _)

theorem isSome_read?_iff : (reader.read? body isText).isSome = true ↔ reader.Reads body isText := by
  rw [read?, Reads, ← isSome_fromUTF8?]
  by_cases hsize : reader.limit < body.size
  · rw [if_pos hsize]
    exact iff_of_false nofun fun h => Nat.not_lt.mpr h.1 hsize
  · rw [if_neg hsize, and_iff_right (Nat.not_lt.mp hsize)]
    cases String.fromUTF8? body <;> cases isText <;> simp

end TextReader

/-- A text behind so many spaces, which are white space in any envelope. -/
def spaced (n : Nat) (text : String) : String := String.ofList (List.replicate n ' ') ++ text

theorem utf8ByteSize_spaced (n : Nat) (text : String) :
    (spaced n text).utf8ByteSize = n + text.utf8ByteSize := by
  have hspaces : (String.ofList (List.replicate n ' ')).utf8ByteSize = n := by
    rw [← String.size_toByteArray, String.toByteArray_ofList, List.utf8Encode,
      List.size_toByteArray]
    induction n with
    | zero => rfl
    | succ n ih =>
      rw [List.replicate_succ, List.flatMap_cons, List.length_append, ih]
      exact Nat.add_comm 1 n
  rw [spaced, String.utf8ByteSize_append, hspaces]

theorem decodeText_spaced {φ σ : Type} [DecidableEq φ] (record : Record φ σ) (n : Nat)
    (text : String) : record.decodeText (spaced n text) = record.decodeText text := by
  have hspaces : ∀ c ∈ List.replicate n ' ', isSpace c = true := by
    intro c hc
    rw [List.eq_of_mem_replicate hc]
    rfl
  rw [Record.decodeText, Record.decodeText, Document.read, Document.read, spaced,
    String.toList_append, String.toList_ofList, scan_spaces hspaces]

/-- The reply is a success with content, and what is read from the content holds a route in its
envelope. -/
def Reply.Brings (reply : Reply) (reader : TextReader) (route : Route) : Prop :=
  ∃ status body isText text, reply = .answer status body isText ∧ isSuccess status = true ∧
    status ≠ 204 ∧ reader.read? body isText = some text ∧ routeEnvelope.decodeText text = .ok route

theorem brings_body {reader : TextReader} {route : Route}
    (h : route.body.utf8ByteSize ≤ reader.limit) :
    Reply.Brings (.answer 200 route.body.toUTF8) reader route :=
  ⟨200, _, false, route.body, rfl, rfl, by decide, reader.read?_toUTF8 false h,
    decodeText_routeValue .indented route⟩

theorem not_brings_of_limit_lt {reader : TextReader} {status : Nat} {body : ByteArray}
    {isText : Bool} (h : reader.limit < body.size) (route : Route) :
    ¬ Reply.Brings (.answer status body isText) reader route := by
  rintro ⟨_, _, _, text, ⟨⟩, _, _, htext, _⟩
  rw [reader.read?_of_limit_lt isText h] at htext
  cases htext

theorem decodeWith_eq_ok {φ α : Type} [DecidableEq φ] {record : Record φ α} {text : String}
    {value : α} : decodeWith record text = .ok value ↔ record.decodeText text = .ok value := by
  unfold decodeWith
  exact mapError_eq_ok

theorem decode_eq_ok {φ α : Type} [DecidableEq φ] {record : Record φ α} {answer : Answer}
    {value : α} :
    answer.decode record = .ok value ↔
      ∃ text, answer.text? = some text ∧ isSuccess answer.status = true ∧
        record.decodeText text = .ok value := by
  show (answer.text >>= decodeWith record) = .ok value ↔ _
  unfold Answer.text
  cases answer.text? with
  | none => simp [bind, Except.bind]
  | some text =>
    by_cases hsuccess : isSuccess answer.status = true
    · simp [hsuccess, bind, Except.bind, decodeWith_eq_ok]
    · simp [hsuccess, bind, Except.bind]

theorem decodeText_empty : routeEnvelope.decodeText "" = .error .malformed := by
  have hread : Document.read "" = ⟨.broken, false⟩ := by
    rw [Document.read, String.toList_empty, Token.scan]
    rfl
  rw [Record.decodeText, hread]
  rfl

theorem isRedirect_of_isSuccess {status : Nat} (h : isSuccess status = true) :
    isRedirect status = false := by
  simp only [isSuccess, Bool.and_eq_true, decide_eq_true_eq] at h
  have hlow : ¬ 300 ≤ status := by omega
  simp [isRedirect, hlow]

/-- What a success means to a request that asks for content. -/
theorem receive_of_isSuccess (reader : TextReader) {request : Request}
    (hmethod : request.method ≠ "HEAD") {status : Nat} (h : isSuccess status = true)
    (body : ByteArray) (isText : Bool) :
    Exchange.receive reader request (.answer status body isText) =
      .ok (reader.answer status (if status = 204 then ByteArray.empty else body) isText) := by
  have hmodified : status ≠ 304 := by
    rintro rfl
    exact absurd h (by decide)
  simp [Exchange.receive, isRedirect_of_isSuccess h, hasNoBody, hmethod, hmodified]

/-- A failure arrives as it was sent, whatever its body is. -/
theorem receive_of_failure (reader : TextReader) {request : Request}
    (hmethod : request.method ≠ "HEAD") {status : Nat} (hlow : 400 ≤ status) (body : ByteArray)
    (isText : Bool) :
    Exchange.receive reader request (.answer status body isText) =
      .ok (reader.answer status body isText) := by
  have hredirect : isRedirect status = false := by
    have hhigh : ¬ status < 400 := by omega
    simp [isRedirect, hhigh]
  have hbody : hasNoBody request.method status = false := by
    have h204 : status ≠ 204 := by omega
    have h304 : status ≠ 304 := by omega
    simp [hasNoBody, hmethod, h204, h304]
  simp [Exchange.receive, hredirect, hbody]

theorem isSuccess_of_failure {status : Nat} (hlow : 400 ≤ status) : isSuccess status = false := by
  have hhigh : ¬ status < 300 := by omega
  simp [isSuccess, hhigh]

/-- What a refusal is read as. -/
def refusal (reader : TextReader) (status : Nat) (body : ByteArray) (isText : Bool) : Error :=
  match reader.read? body isText with
  | some text => .ofStatus status (errorMessage status text)
  | none => Exchange.transportFailure

/-- A refusal is read alike whatever would be made of the text of a success. -/
theorem receive_bind_of_failure {α : Type} (reader : TextReader) {request : Request}
    (hmethod : request.method ≠ "HEAD") {status : Nat} (hlow : 400 ≤ status) (body : ByteArray)
    (isText : Bool) (read : String → Except Error α) :
    (Exchange.receive reader request (.answer status body isText) >>=
        fun answer => answer.text >>= read) = .error (refusal reader status body isText) := by
  rw [receive_of_failure reader hmethod hlow]
  show ((reader.answer status body isText).text >>= read) = _
  unfold Answer.text refusal TextReader.answer
  dsimp only
  cases reader.read? body isText with
  | none => rfl
  | some text =>
    dsimp only
    rw [isSuccess_of_failure hlow]
    rfl

theorem isSuccess_of_receive_bind_decode {φ α : Type} [DecidableEq φ] {record : Record φ α}
    {reader : TextReader} {request : Request} {status : Nat} {body : ByteArray} {isText : Bool}
    {value : α}
    (h : (Exchange.receive reader request (.answer status body isText) >>=
      Answer.decode record) = .ok value) :
    isSuccess status = true := by
  by_cases hredirect : isRedirect status = true
  · rw [Exchange.receive, if_pos hredirect] at h
    cases h
  · rw [Exchange.receive, if_neg hredirect] at h
    change Answer.decode record (reader.answer status _ isText) = .ok value at h
    obtain ⟨_, _, hsuccess, _⟩ := decode_eq_ok.mp h
    exact hsuccess

/-- A request gets a route exactly from a reply that brings it. -/
theorem receive_bind_decode_eq_ok {reader : TextReader} {request : Request}
    (hmethod : request.method ≠ "HEAD") {reply : Reply} {route : Route} :
    (Exchange.receive reader request reply >>= Answer.decode routeEnvelope) = .ok route ↔
      reply.Brings reader route := by
  constructor
  · intro h
    cases reply with
    | drop => cases h
    | answer status body isText =>
      have hsuccess := isSuccess_of_receive_bind_decode h
      rw [receive_of_isSuccess reader hmethod hsuccess] at h
      change Answer.decode routeEnvelope (reader.answer status _ isText) = .ok route at h
      obtain ⟨text, htext, _, hroute⟩ := decode_eq_ok.mp h
      change reader.read? _ isText = some text at htext
      have hcontent : status ≠ 204 := by
        rintro rfl
        have hempty : some "" = some text := (reader.read?_empty isText).symm.trans htext
        rw [← Option.some.inj hempty, decodeText_empty] at hroute
        cases hroute
      rw [if_neg hcontent] at htext
      exact ⟨status, body, isText, text, rfl, hsuccess, hcontent, htext, hroute⟩
  · rintro ⟨status, body, isText, text, rfl, hsuccess, hcontent, htext, hroute⟩
    rw [receive_of_isSuccess reader hmethod hsuccess, if_neg hcontent]
    exact decode_eq_ok.mpr ⟨text, htext, hsuccess, hroute⟩

/-! ## Errors -/

theorem blameless_receive (reader : TextReader) (request : Request) (reply : Reply) :
    Blameless (Exchange.receive reader request reply) := by
  cases reply with
  | drop => exact blameless_error nofun
  | answer status body isText =>
    rw [Exchange.receive]
    split
    · exact blameless_error nofun
    · exact blameless_ok _

theorem blameless_text (answer : Answer) : Blameless answer.text := by
  unfold Answer.text
  split
  · exact blameless_error nofun
  · split
    · exact blameless_ok _
    · exact blameless_error (Error.category_ofStatus_ne_validation _ _)

theorem blameless_decodeWith {φ α : Type} [DecidableEq φ] (record : Record φ α) (text : String) :
    Blameless (decodeWith record text) := by
  unfold decodeWith
  cases record.decodeText text with
  | ok value => exact blameless_ok value
  | error fault => cases fault <;> exact blameless_error nofun

/-- No reply is taken for a fault of the arguments. -/
theorem blameless_receive_bind_decode {φ α : Type} [DecidableEq φ] (record : Record φ α)
    (reader : TextReader) (request : Request) (reply : Reply) :
    Blameless (Exchange.receive reader request reply >>= Answer.decode record) :=
  blameless_bind (blameless_receive reader request reply) (fun answer =>
    blameless_bind (blameless_text answer) (blameless_decodeWith record))

end Http
end AppRoutes
