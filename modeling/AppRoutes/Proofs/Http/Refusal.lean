/-
Refusals.

A refusal is known by its status, and each operation narrows it to the categories that it
surfaces.  The body is read as a text before the status counts, so the status decides exactly
if the library reads the body as one.  A body that it gives up, for its length or for its bytes,
is taken for a broken connection, with a success as with a refusal.
-/
import AppRoutes.Proofs.Http.Operations
import AppRoutes.Proofs.Http.Patch

namespace AppRoutes.Http

open AppRoutes.Action

/-- The outcome is an error of the category that a status stands for, narrowed to those that
an operation lets through, and an unexpected error keeps the status. -/
def Refused {α : Type} (status : Nat) (allowed : List Category) (outcome : Except Error α) :
    Prop :=
  ∃ e, outcome = .error e ∧ e.category = (Category.ofStatus status).narrowed allowed ∧
    (e.category = .unexpected → e.status? = some status)

/-- The status of a refusal counts exactly if its body is read as a text. -/
theorem refused_refusal_iff {α : Type} (reader : TextReader) (status : Nat) (body : ByteArray)
    (isText : Bool) (allowed : List Category) :
    Refused status allowed
        (.error ((refusal reader status body isText).surfaceOnly allowed) : Except Error α) ↔
      reader.Reads body isText := by
  rw [← reader.isSome_read?_iff, refusal]
  cases reader.read? body isText with
  | none =>
    refine iff_of_false ?_ nofun
    rintro ⟨e, he, -, hkeeps⟩
    rw [← Except.error.inj he] at hkeeps
    exact nomatch hkeeps rfl
  | some text =>
    refine iff_of_true ⟨_, rfl, ?_⟩ rfl
    rw [← Error.category_ofStatus status (errorMessage status text)]
    exact Error.surfaceOnly_of_answered? (Error.answered?_ofStatus status _)
      (Error.category_ofStatus_ne_validation status _) allowed

/-- One step of an operation that is refused. -/
theorem refused_step_iff {α : Type} {reader : TextReader} {request : Request}
    (hmethod : request.method ≠ "HEAD") {status : Nat} (hlow : 400 ≤ status) (body : ByteArray)
    (isText : Bool) (read : String → Except Error α) (allowed : List Category) :
    Refused status allowed
        ((Exchange.receive reader request (.answer status body isText) >>=
          fun answer => answer.text >>= read).mapError (Error.surfaceOnly allowed)) ↔
      reader.Reads body isText := by
  rw [receive_bind_of_failure reader hmethod hlow]
  exact refused_refusal_iff reader status body isText allowed

namespace Api

variable (api : Api) (app path : String) {exchange : Exchange} {status : Nat} {body : ByteArray}
  {isText : Bool}

theorem refused_patch_iff (hpath : path ≠ "") (hreach : exchange.isReachable = true)
    (hlow : 400 ≤ status) (hreply : exchange.replyAt 0 = .answer status body isText)
    (delta : Option Delta) :
    Refused status [.notFound] ((Client.patch api.backend app path delta).runOn exchange).1 ↔
      exchange.reader.Reads body isText := by
  have hmethod : (api.fetchRequest app path).method ≠ "HEAD" := by simp [fetchRequest]
  have hrefused :
      (Exchange.receive exchange.reader (api.fetchRequest app path) (.answer status body isText) >>=
        Answer.decode routeEnvelope) = .error (refusal exchange.reader status body isText) :=
    receive_bind_of_failure exchange.reader hmethod hlow body isText _
  rw [runOn_patch_eq api app path delta hpath hreach, hreply, hrefused]
  exact refused_refusal_iff exchange.reader status body isText [.notFound]

/-- Nothing is made of the body of a success, but it has to be read as a text. -/
theorem delete_eq_ok_iff (hpath : path ≠ "") (hreach : exchange.isReachable = true)
    (hsuccess : isSuccess status = true)
    (hreply : exchange.replyAt 0 = .answer status body isText) :
    ((Client.delete api.backend app path).runOn exchange).1 = .ok () ↔
      status = 204 ∨ exchange.reader.Reads body isText := by
  have hmethod : (api.deleteRequest app path).method ≠ "HEAD" := by simp [deleteRequest]
  have htext : ∀ sent,
      ((exchange.reader.answer status sent isText).text >>= fun _ => Except.ok ()) = .ok () ↔
        (exchange.reader.read? sent isText).isSome = true := by
    intro sent
    unfold Answer.text TextReader.answer
    dsimp only
    cases exchange.reader.read? sent isText with
    | none => simp [bind, Except.bind]
    | some text =>
      dsimp only
      rw [hsuccess]
      exact iff_of_true rfl rfl
  rw [runOn_client_delete api app path hpath hreach, hreply]
  dsimp only
  rw [mapError_eq_ok, receive_of_isSuccess exchange.reader hmethod hsuccess]
  refine (htext _).trans ?_
  by_cases hempty : status = 204
  · rw [if_pos hempty, exchange.reader.read?_empty]
    exact iff_of_true rfl (Or.inl hempty)
  · rw [if_neg hempty, exchange.reader.isSome_read?_iff]
    exact (or_iff_right hempty).symm

/-- The status of an answer says how an operation fails, at either step of an update, and that
a route is deleted, exactly if the library reads the body of the answer as a text or there is
none. -/
theorem status_decides_iff_text (delta : Delta) (hpath : path ≠ "")
    (himage : (nonempty? delta.image).isSome = true) (hreach : exchange.isReachable = true)
    (status : Nat) (body : ByteArray) (isText : Bool) :
    (400 ≤ status → exchange.replyAt 0 = .answer status body isText →
      (Refused status [.notFound] ((Client.get api.backend app path).runOn exchange).1 ↔
        exchange.reader.Reads body isText) ∧
      (Refused status [.notFound] ((Client.list api.backend app).runOn exchange).1 ↔
        exchange.reader.Reads body isText) ∧
      (Refused status [.badRequest, .conflict]
          ((Client.create api.backend app path delta).runOn exchange).1 ↔
        exchange.reader.Reads body isText) ∧
      (Refused status [.notFound] ((Client.delete api.backend app path).runOn exchange).1 ↔
        exchange.reader.Reads body isText) ∧
      ∀ change, Refused status [.notFound]
          ((Client.patch api.backend app path change).runOn exchange).1 ↔
        exchange.reader.Reads body isText) ∧
    (400 ≤ status → exchange.replyAt 1 = .answer status body isText → ∀ route change,
      (exchange.replyAt 0).Brings exchange.reader route →
        (Refused status [.badRequest, .notFound, .conflict]
            ((Client.patch api.backend app path change).runOn exchange).1 ↔
          exchange.reader.Reads body isText)) ∧
    (isSuccess status = true → exchange.replyAt 0 = .answer status body isText →
      (((Client.delete api.backend app path).runOn exchange).1 = .ok () ↔
        status = 204 ∨ exchange.reader.Reads body isText)) := by
  refine ⟨fun hlow hreply => ⟨?get, ?list, ?create, ?delete, fun change => ?fetch⟩,
    fun hlow hreply route change hroute => ?replace, fun hsuccess hreply => ?deleted⟩
  case get =>
    rw [runOn_client_get api app path hpath hreach, hreply]
    exact refused_step_iff (by simp [fetchRequest]) hlow body isText _ _
  case list =>
    rw [runOn_client_list api app hreach, hreply]
    exact refused_step_iff (by simp [listRequest]) hlow body isText _ _
  case create =>
    have hnamed : ¬ (nonempty? delta.image).isNone = true := by
      rw [Option.isNone_iff_eq_none, ← Option.not_isSome_iff_eq_none]
      exact not_not_intro himage
    rw [Client.runOn_create, if_neg (Client.not_isEmpty_of_ne hpath), if_neg hnamed,
      runOn_submitNew api app path delta hreach, hreply]
    exact refused_step_iff (by simp [createRequest]) hlow body isText _ _
  case delete =>
    rw [runOn_client_delete api app path hpath hreach, hreply]
    exact refused_step_iff (by simp [deleteRequest]) hlow body isText _ _
  case fetch => exact refused_patch_iff api app path hpath hreach hlow hreply change
  case replace =>
    rw [runOn_patch_of_brings api app path change hpath hreach hroute, hreply]
    exact refused_step_iff (by simp [replaceRequest]) hlow body isText _ _
  case deleted => exact delete_eq_ok_iff api app path hpath hreach hsuccess hreply

/-- A page of HTML is a text, so the status that comes with it counts. -/
theorem status_decides_iff_text_html :
    "/hello" ≠ "" ∧ (nonempty? (some "img")).isSome = true ∧
      ({ replies := [.answer 404 "<html>".toUTF8] } : Exchange).isReachable = true ∧
      Refused 404 [.notFound] ((Client.get initial.backend "app" "/hello").runOn
        { replies := [.answer 404 "<html>".toUTF8] }).1 := by
  have hpath : "/hello" ≠ "" := by decide
  have himage : (nonempty? (some "img")).isSome = true := by decide
  have hreads : ({} : TextReader).Reads "<html>".toUTF8 false :=
    ⟨by decide, .inr "<html>".isValidUTF8⟩
  have hdecides := @status_decides_iff_text initial "app" "/hello"
    { replies := [.answer 404 "<html>".toUTF8] } { image := some "img" } hpath himage rfl 404
    "<html>".toUTF8 false
  exact ⟨hpath, himage, rfl, (hdecides.1 (by decide) rfl).1.mpr hreads⟩

/-- A text longer than the library reads hides a 404, and a success from a deletion.  So does a
single byte that belongs to no text, unless the content type is one of the types of texts. -/
theorem unread_body_hides_status :
    (¬ Refused 404 [.notFound] ((Client.get initial.backend "app" "/hello").runOn
          { replies := [.answer 404 (spaced textLimit "no").toUTF8] }).1 ∧
        ((Client.delete initial.backend "app" "/hello").runOn
          { replies := [.answer 200 (spaced textLimit "ok").toUTF8] }).1 ≠ .ok ()) ∧
      ¬ Refused 404 [.notFound] ((Client.get initial.backend "app" "/hello").runOn
          { replies := [.answer 404 ⟨#[0xFF]⟩] }).1 ∧
        ((Client.delete initial.backend "app" "/hello").runOn
          { replies := [.answer 200 ⟨#[0xFF]⟩] }).1 ≠ .ok () := by
  have hpath : "/hello" ≠ "" := by decide
  have hmethod : (initial.fetchRequest "app" "/hello").method ≠ "HEAD" := by simp [fetchRequest]
  have hget : ∀ body, ¬ ({} : TextReader).Reads body false →
      ¬ Refused 404 [.notFound] ((Client.get initial.backend "app" "/hello").runOn
        { replies := [.answer 404 body] }).1 := by
    intro body hunread
    rw [@runOn_client_get initial "app" "/hello" { replies := [.answer 404 body] } hpath rfl]
    exact fun h => hunread
      ((refused_step_iff hmethod (by decide) body false (decodeWith routeEnvelope) _).mp h)
  have hdelete : ∀ body, ¬ ({} : TextReader).Reads body false →
      ((Client.delete initial.backend "app" "/hello").runOn
        { replies := [.answer 200 body] }).1 ≠ .ok () := by
    intro body hunread
    rw [ne_eq, @delete_eq_ok_iff initial "app" "/hello" { replies := [.answer 200 body] } 200 body
      false hpath rfl rfl rfl]
    exact fun h => h.elim (by decide) hunread
  have hlong : ∀ text : String, 0 < text.utf8ByteSize →
      ¬ ({} : TextReader).Reads (spaced textLimit text).toUTF8 false := by
    rintro text htext ⟨hsize, -⟩
    change (spaced textLimit text).utf8ByteSize ≤ textLimit at hsize
    rw [utf8ByteSize_spaced] at hsize
    omega
  have hbinary : ¬ ({} : TextReader).Reads ⟨#[0xFF]⟩ false := by
    rintro ⟨-, hvalid⟩
    exact hvalid.elim (by decide) (by decide)
  exact ⟨⟨hget _ (hlong "no" (by decide)), hdelete _ (hlong "ok" (by decide))⟩,
    hget _ hbinary, hdelete _ hbinary⟩

end Api
end AppRoutes.Http
