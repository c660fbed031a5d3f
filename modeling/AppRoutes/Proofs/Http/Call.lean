/-
Calls over the wire.

A call that is well formed is one request, which carries its method, its body and every header in
order.  A call that is not is told its first fault: the method comes first, then the headers one
by one, each name before its value, and a method that is a token but not one of the protocol
counts only if nothing else is wrong.  Faults are described here without the checks that find them.
-/
import AppRoutes.Proofs.Http.Operations

namespace AppRoutes.Http

open AppRoutes.Action

def IsToken (text : String) : Prop := text ≠ "" ∧ ∀ c ∈ text.toList, isTokenChar c = true

/-- A value without control characters other than tabs. -/
def IsFieldValue (value : String) : Prop :=
  ∀ c ∈ value.toList, c = '\t' ∨ 0x20 ≤ c.toNat ∧ c.toNat ≠ 0x7F

def IsSound (header : String × String) : Prop := IsToken header.1 ∧ IsFieldValue header.2

/-- What is wrong with a header: the name, or the value of a name that is right. -/
inductive IsFaulty : Invalid → String × String → Prop
  | name {name value : String} (h : ¬ IsToken name) : IsFaulty .headerName (name, value)
  | value {name value : String} (hname : IsToken name) (h : ¬ IsFieldValue value) :
    IsFaulty .headerValue (name, value)

/-- The first header that is not sound has the fault. -/
def FirstFault (invalid : Invalid) (headers : List (String × String)) : Prop :=
  ∃ before header after, headers = before ++ header :: after ∧
    (∀ other ∈ before, IsSound other) ∧ IsFaulty invalid header

theorem isToken_iff {text : String} : isToken text = true ↔ IsToken text := by
  simp [isToken, IsToken]

theorem isHeaderValue_iff {value : String} : isHeaderValue value = true ↔ IsFieldValue value := by
  simp [isHeaderValue, IsFieldValue, or_comm]

theorem checkHeaders_cons_of_isSound {header : String × String} (h : IsSound header)
    (rest : List (String × String)) : checkHeaders (header :: rest) = checkHeaders rest := by
  obtain ⟨name, value⟩ := header
  rw [checkHeaders, isToken_iff.mpr h.1, isHeaderValue_iff.mpr h.2]
  rfl

theorem checkHeaders_cons_of_isFaulty {invalid : Invalid} {header : String × String}
    (h : IsFaulty invalid header) (rest : List (String × String)) :
    checkHeaders (header :: rest) = .error invalid := by
  cases h with
  | name hname =>
    rw [← isToken_iff, Bool.not_eq_true] at hname
    rw [checkHeaders, hname]
    rfl
  | value hname hvalue =>
    rw [← isHeaderValue_iff, Bool.not_eq_true] at hvalue
    rw [checkHeaders, isToken_iff.mpr hname, hvalue]
    rfl

theorem isSound_or_isFaulty (header : String × String) :
    IsSound header ∨ ∃ invalid, IsFaulty invalid header := by
  obtain ⟨name, value⟩ := header
  by_cases hname : IsToken name
  · by_cases hvalue : IsFieldValue value
    · exact Or.inl ⟨hname, hvalue⟩
    · exact Or.inr ⟨_, .value hname hvalue⟩
  · exact Or.inr ⟨_, .name hname⟩

theorem checkHeaders_append_of_isSound {before : List (String × String)}
    (h : ∀ header ∈ before, IsSound header) (rest : List (String × String)) :
    checkHeaders (before ++ rest) = checkHeaders rest := by
  induction before with
  | nil => rfl
  | cons header before ih =>
    obtain ⟨hheader, hbefore⟩ := List.forall_mem_cons.mp h
    rw [List.cons_append, checkHeaders_cons_of_isSound hheader, ih hbefore]

theorem FirstFault.checkHeaders_append {invalid : Invalid} {headers : List (String × String)}
    (h : FirstFault invalid headers) (rest : List (String × String)) :
    checkHeaders (headers ++ rest) = .error invalid := by
  obtain ⟨before, header, after, rfl, hbefore, hheader⟩ := h
  rw [List.append_assoc, checkHeaders_append_of_isSound hbefore, List.cons_append,
    checkHeaders_cons_of_isFaulty hheader]

/-- Headers are all sound or have a first one that is not. -/
theorem isSound_or_firstFault (headers : List (String × String)) :
    (∀ header ∈ headers, IsSound header) ∨ ∃ invalid, FirstFault invalid headers := by
  induction headers with
  | nil => exact Or.inl (List.forall_mem_nil _)
  | cons header rest ih =>
    rcases isSound_or_isFaulty header with hsound | ⟨invalid, hfaulty⟩
    · rcases ih with hrest | ⟨invalid, before, other, after, rfl, hbefore, hother⟩
      · exact Or.inl (List.forall_mem_cons.mpr ⟨hsound, hrest⟩)
      · exact Or.inr ⟨invalid, header :: before, other, after, rfl,
          List.forall_mem_cons.mpr ⟨hsound, hbefore⟩, hother⟩
    · exact Or.inr ⟨invalid, [], header, rest, rfl, List.forall_mem_nil _, hfaulty⟩

/-- Headers that the connection sets. -/
def connectionHeaders : List String :=
  ["host", "user-agent", "connection", "accept-encoding", "content-length", "transfer-encoding"]

/-- The values that headers give for a name in whatever case, in order. -/
def valuesOf (name : String) (headers : List (String × String)) : List String :=
  (headers.filter (fun header => header.1.toLower = name.toLower)).map (·.2)

theorem valuesOf_append (name : String) (first second : List (String × String)) :
    valuesOf name (first ++ second) = valuesOf name first ++ valuesOf name second := by
  simp [valuesOf]

theorem valuesOf_eq_nil_iff {name : String} {headers : List (String × String)} :
    valuesOf name headers = [] ↔ ∀ header ∈ headers, header.1.toLower ≠ name.toLower := by
  simp [valuesOf]

theorem any_isAccept_iff {headers : List (String × String)} {name : String}
    (hname : name.toLower = "accept") :
    headers.any isAccept = true ↔ valuesOf name headers ≠ [] := by
  rw [ne_eq, valuesOf_eq_nil_iff, hname]
  simp [isAccept]

/-- The small letters of a text are found character by character. -/
theorem toLower_eq_of_map {text lower : String}
    (h : text.toList.map Char.toLower = lower.toList) : text.toLower = lower :=
  String.toList_inj.mp (String.toList_map.trans h)

theorem toLower_jsonCall : jsonCall.1.toLower = "content-type" := toLower_eq_of_map (by decide)

theorem toLower_acceptAnything : acceptAnything.1.toLower = "accept" :=
  toLower_eq_of_map (by decide)

theorem toLower_of_mem_connectionHeaders {name : String} (h : name ∈ connectionHeaders) :
    name.toLower = name := by
  have hall : ∀ name ∈ connectionHeaders, name.toList.map Char.toLower = name.toList := by decide
  exact toLower_eq_of_map (hall name h)

/-- The request that a call is sent as. -/
structure Request.Delivers (request : Request) (url : String) (invocation : Invocation) : Prop where
  method : request.method = invocation.method
  url : request.url = url
  body : request.body = invocation.body.getD ByteArray.empty
  /-- A name that the call gives has its values, all of them and in order. -/
  given : ∀ name, name.toLower ≠ "content-type" → valuesOf name invocation.headers ≠ [] →
    valuesOf name request.headers = valuesOf name invocation.headers
  contentType : ∀ name, name.toLower = "content-type" →
    valuesOf name request.headers = "application/json" :: valuesOf name invocation.headers
  /-- Of the names that the call does not give, only one is filled in. -/
  filled : ∀ name, name.toLower ≠ "content-type" → valuesOf name invocation.headers = [] →
    valuesOf name request.headers = if name.toLower = "accept" then ["*/*"] else []
  connection : ∀ name ∈ connectionHeaders, valuesOf name request.headers = []

/-- A call that is sent: its method is one of the protocol and its headers are sound. -/
def IsSendable (invocation : Invocation) : Prop :=
  invocation.method ∈ standardMethods ∧ ∀ header ∈ invocation.headers, IsSound header

/-- The error names the first fault of a call that is not sent. -/
inductive Offends (invocation : Invocation) : Error → Prop
  | method (h : ¬ IsToken invocation.method) :
    Offends invocation (.unexpected "error running route: invalid HTTP method" none)
  | headerName (hmethod : IsToken invocation.method)
      (h : FirstFault .headerName invocation.headers) :
    Offends invocation (.unexpected "error running route: invalid HTTP header name" none)
  | headerValue (hmethod : IsToken invocation.method)
      (h : FirstFault .headerValue invocation.headers) :
    Offends invocation (.unexpected "error running route: failed to parse header value" none)
  | foreign (hmethod : IsToken invocation.method)
      (hheaders : ∀ header ∈ invocation.headers, IsSound header)
      (h : invocation.method ∉ standardMethods) :
    Offends invocation
      (.unexpected ("protocol: " ++ invocation.method ++ " not valid for HTTP version HTTP/1.1")
        none)

theorem isToken_of_mem_standardMethods {method : String} (h : method ∈ standardMethods) :
    IsToken method := by
  have hall : ∀ method ∈ standardMethods, isToken method = true := by decide
  exact isToken_iff.mp (hall method h)

/-- Every call is sent or has a first fault. -/
theorem isSendable_or_offends (invocation : Invocation) :
    IsSendable invocation ∨ ∃ e, Offends invocation e := by
  by_cases htoken : IsToken invocation.method
  · rcases isSound_or_firstFault invocation.headers with hsound | ⟨invalid, hfault⟩
    · by_cases hmethod : invocation.method ∈ standardMethods
      · exact Or.inl ⟨hmethod, hsound⟩
      · exact Or.inr ⟨_, .foreign htoken hsound hmethod⟩
    · cases invalid with
      | method =>
        obtain ⟨-, header, -, -, -, hfaulty⟩ := hfault
        cases hfaulty
      | headerName => exact Or.inr ⟨_, .headerName htoken hfault⟩
      | headerValue => exact Or.inr ⟨_, .headerValue htoken hfault⟩
  · exact Or.inr ⟨_, .method htoken⟩

theorem isSound_jsonCall : IsSound jsonCall :=
  ⟨isToken_iff.mp (by decide), isHeaderValue_iff.mp (by decide)⟩

theorem isSound_acceptAnything : IsSound acceptAnything :=
  ⟨isToken_iff.mp (by decide), isHeaderValue_iff.mp (by decide)⟩

/-- Of the headers of a request only those of the call can be faulty. -/
theorem check_callRequest {invocation : Invocation} (htoken : IsToken invocation.method)
    (url : String) :
    (callRequest url invocation).check = checkHeaders (invocation.headers ++
      if invocation.headers.any isAccept then [] else [acceptAnything]) := by
  have hmethod : isToken (callRequest url invocation).method = true := isToken_iff.mpr htoken
  rw [Request.check, if_pos hmethod]
  exact checkHeaders_cons_of_isSound isSound_jsonCall _

theorem check_callRequest_of_isSound {invocation : Invocation}
    (htoken : IsToken invocation.method)
    (hsound : ∀ header ∈ invocation.headers, IsSound header) (url : String) :
    (callRequest url invocation).check = .ok () := by
  rw [check_callRequest htoken, checkHeaders_append_of_isSound hsound]
  split
  · rfl
  · rw [checkHeaders_cons_of_isSound isSound_acceptAnything]
    rfl

theorem check_callRequest_of_firstFault {invocation : Invocation} {invalid : Invalid}
    (htoken : IsToken invocation.method) (h : FirstFault invalid invocation.headers)
    (url : String) : (callRequest url invocation).check = .error invalid := by
  rw [check_callRequest htoken, h.checkHeaders_append]

theorem valuesOf_singleton (name : String) (header : String × String) :
    valuesOf name [header] = if name.toLower = header.1.toLower then [header.2] else [] := by
  by_cases h : header.1.toLower = name.toLower
  · simp [valuesOf, h]
  · simp [valuesOf, h, Ne.symm h]

theorem valuesOf_callRequest (name url : String) (invocation : Invocation) :
    valuesOf name (callRequest url invocation).headers =
      (if name.toLower = "content-type" then ["application/json"] else []) ++
        (valuesOf name invocation.headers ++
          if name.toLower = "accept" ∧ valuesOf name invocation.headers = [] then ["*/*"]
          else []) := by
  show valuesOf name ([jsonCall] ++ (invocation.headers ++
    if invocation.headers.any isAccept then [] else [acceptAnything])) = _
  rw [valuesOf_append, valuesOf_append, valuesOf_singleton, toLower_jsonCall]
  congr 2
  by_cases hname : name.toLower = "accept"
  · by_cases hgiven : valuesOf name invocation.headers = []
    · have hnone : ¬ invocation.headers.any isAccept = true := fun h =>
        (any_isAccept_iff hname).mp h hgiven
      rw [if_neg hnone, if_pos ⟨hname, hgiven⟩, valuesOf_singleton, toLower_acceptAnything,
        if_pos hname]
      rfl
    · rw [if_pos ((any_isAccept_iff hname).mpr hgiven), if_neg fun h => hgiven h.2]
      rfl
  · have hnot : ¬ (name.toLower = "accept" ∧ valuesOf name invocation.headers = []) :=
      fun h => hname h.1
    rw [if_neg hnot]
    split
    · rfl
    · rw [valuesOf_singleton, toLower_acceptAnything, if_neg hname]

theorem delivers_callRequest (url : String) {invocation : Invocation}
    (hfree : ∀ header ∈ invocation.headers, header.1.toLower ∉ connectionHeaders) :
    (callRequest url invocation).Delivers url invocation where
  method := rfl
  url := rfl
  body := rfl
  given name hname hgiven := by
    rw [valuesOf_callRequest, if_neg hname, if_neg fun h => hgiven h.2, List.append_nil]
    rfl
  contentType name hname := by
    have haccept : ¬ (name.toLower = "accept" ∧ valuesOf name invocation.headers = []) := by
      rw [hname]
      exact fun h => absurd h.1 (by decide)
    rw [valuesOf_callRequest, if_pos hname, if_neg haccept, List.append_nil]
    rfl
  filled name hname hnone := by
    rw [valuesOf_callRequest, if_neg hname, hnone]
    simp
  connection name hname := by
    have hlower : name.toLower ∈ connectionHeaders := by
      rw [toLower_of_mem_connectionHeaders hname]
      exact hname
    have hnone : valuesOf name invocation.headers = [] :=
      valuesOf_eq_nil_iff.mpr fun header hheader heq => hfree header hheader (heq ▸ hlower)
    have hcontent : name.toLower ≠ "content-type" := fun heq =>
      absurd (heq ▸ hlower) (by decide)
    have haccept : name.toLower ≠ "accept" := fun heq => absurd (heq ▸ hlower) (by decide)
    rw [valuesOf_callRequest, if_neg hcontent, hnone, if_neg fun h => haccept h.1]
    rfl

/-! ## Sending or refusing -/

namespace Api

variable (api : Api) (app path : String)

theorem runOn_call_of_offends {exchange : Exchange} (hpath : path ≠ "")
    (hreach : exchange.isReachable = true) {invocation : Invocation} {e : Error}
    (h : Offends invocation e) :
    (Client.call api.backend app path invocation).runOn exchange = (.error e, exchange) := by
  cases h with
  | method htoken =>
    have hmethod : ¬ isToken (callRequest (api.callUrl app path) invocation).method = true :=
      fun h => htoken (isToken_iff.mp h)
    exact runOn_call_of_error api app path hpath (if_neg hmethod)
  | headerName htoken hfault =>
    exact runOn_call_of_error api app path hpath (check_callRequest_of_firstFault htoken hfault _)
  | headerValue htoken hfault =>
    exact runOn_call_of_error api app path hpath (check_callRequest_of_firstFault htoken hfault _)
  | foreign htoken hsound hmethod =>
    rw [runOn_call_of_ok api app path hpath (check_callRequest_of_isSound htoken hsound _),
      runOn_surfacing, runOn_map, Exchange.runOn_send_of_foreign hreach hmethod]
    rfl

/-- A call is one request that delivers it, or it is not sent and told its first fault.  Which of
the two it is can be seen from its method and its headers. -/
theorem call_sends_once_or_tells_fault (exchange : Exchange) (invocation : Invocation)
    (hpath : path ≠ "") (hreach : exchange.isReachable = true)
    (hfree : ∀ header ∈ invocation.headers, header.1.toLower ∉ connectionHeaders) :
    let result := (Client.call api.backend app path invocation).runOn exchange
    (IsSendable invocation → ∃ request : Request,
      result.2.received = exchange.received ++ [request] ∧
        request.Delivers (api.callUrl app path) invocation) ∧
    (¬ IsSendable invocation → ∃ e, Offends invocation e) ∧
    ∀ e, Offends invocation e → result = (.error e, exchange) := by
  intro result
  refine ⟨fun hsendable => ?_, fun hnot => ?_, fun e h => ?_⟩
  · have hcheck := check_callRequest_of_isSound (isToken_of_mem_standardMethods hsendable.1)
      hsendable.2 (api.callUrl app path)
    exact ⟨_, received_call api app path hpath hreach hcheck hsendable.1,
      delivers_callRequest _ hfree⟩
  · exact (isSendable_or_offends invocation).resolve_left hnot
  · exact runOn_call_of_offends api app path hpath hreach h

/-- A header that is given twice is sent twice, and a content type beside that of every call. -/
theorem call_sends_once_or_tells_fault_repeated :
    let invocation : Invocation :=
      { method := "PUT"
        headers := [("X-Tag", "a"), ("Content-Type", "text/plain"), ("x-tag", "b")] }
    "/hello" ≠ "" ∧ ({} : Exchange).isReachable = true ∧
      (∀ header ∈ invocation.headers, header.1.toLower ∉ connectionHeaders) ∧
      ∃ request : Request,
        ((Client.call initial.backend "app" "/hello" invocation).runOn {}).2.received = [request] ∧
        valuesOf "x-tag" request.headers = ["a", "b"] ∧
        valuesOf "content-type" request.headers = ["application/json", "text/plain"] := by
  intro invocation
  have hpath : "/hello" ≠ "" := by decide
  have htag : "X-Tag".toLower = "x-tag" := toLower_eq_of_map (by decide)
  have htag' : "x-tag".toLower = "x-tag" := toLower_eq_of_map (by decide)
  have htype : "Content-Type".toLower = "content-type" := toLower_eq_of_map (by decide)
  have htype' : "content-type".toLower = "content-type" := toLower_eq_of_map (by decide)
  have hfree : ∀ header ∈ invocation.headers, header.1.toLower ∉ connectionHeaders := by
    simp [invocation, htag, htag', htype, connectionHeaders]
  have hsendable : IsSendable invocation := by
    refine ⟨by simp [invocation, standardMethods], fun header hheader => ?_⟩
    have hall : ∀ header ∈ invocation.headers,
        isToken header.1 = true ∧ isHeaderValue header.2 = true := by
      decide
    obtain ⟨hname, hvalue⟩ := hall header hheader
    exact ⟨isToken_iff.mp hname, isHeaderValue_iff.mp hvalue⟩
  have htags : valuesOf "x-tag" invocation.headers = ["a", "b"] := by
    simp [valuesOf, invocation, htag, htag', htype]
  have htypes : valuesOf "content-type" invocation.headers = ["text/plain"] := by
    simp [valuesOf, invocation, htag, htag', htype, htype']
  have hother : "x-tag".toLower ≠ "content-type" := by
    rw [htag']
    decide
  have hgiven : valuesOf "x-tag" invocation.headers ≠ [] := by
    rw [htags]
    decide
  obtain ⟨hsends, -, -⟩ := call_sends_once_or_tells_fault initial "app" "/hello" {} invocation
    hpath rfl hfree
  obtain ⟨request, hreceived, hdelivers⟩ := hsends hsendable
  refine ⟨hpath, rfl, hfree, request, hreceived, ?_, ?_⟩
  · rw [hdelivers.given "x-tag" hother hgiven, htags]
  · rw [hdelivers.contentType "content-type" htype', htypes]

end Api
end AppRoutes.Http
