import WazoWebhookd.Library.Json

/-! How the services report on a request: its bodies decoded for a detail record, and the
exceptions of the HTTP libraries turned into those of a hook. -/
namespace WazoWebhookd

/-- How `json.loads` fails; the others are those of a number with too many digits and of a text
nested too deep. -/
inductive JsonLoadsError
  | jsonDecodeError
  | other
  deriving DecidableEq

inductive PyError
  | attributeError
  | runtimeError
  | typeError
  | unicodeDecodeError
  | jsonLoads
  deriving DecidableEq

/-- The `body` of a prepared request; a stream is a file or an iterator. -/
inductive RequestBody
  | none
  | text (s : String)
  | bytes (b : ByteArray)
  | stream

/-- A request of `requests`, or one of `httpx`, whose content is bytes once it was read. -/
inductive SentBody
  | prepared (body : RequestBody)
  | httpx (content : Option ByteArray)

structure HttpRequest where
  method : String
  url : String
  body : SentBody
  headers : List (String × String)

/-- A response whose body its charset can decode, so that it has a text. -/
structure HttpResponse where
  statusCode : ℕ
  headers : List (String × String)
  text : String

/-- Both `RequestDetailsDict` and `ErrorRequestDetailsDict`, apart from the error. -/
structure RequestDetails where
  requestMethod : String
  requestUrl : String
  requestBody : Json
  requestHeaders : List (String × String)
  responseStatusCode : Option ℕ
  responseHeaders : List (String × String)
  responseBody : Json

section Decode
variable (loads : String → Except JsonLoadsError Json)

def decodeText (text : String) : Except PyError Json :=
  match loads text with
  | .ok value => .ok value
  | .error .jsonDecodeError => .ok (.str text)
  | .error .other => .error .jsonLoads

def decode : RequestBody → Except PyError Json
  | .none => .ok .null
  | .text s => decodeText loads s
  | .bytes b =>
    match String.fromUTF8? b with
    | some text => decodeText loads text
    | none => .error .unicodeDecodeError
  | .stream => .error .typeError

def HttpRequest.data (request : HttpRequest) : Except PyError RequestBody :=
  match request.body with
  | .prepared body => .ok body
  | .httpx (some content) => .ok (.bytes content)
  | .httpx none => .error .runtimeError

/-- `json.loads` gives a value of the text, or finds that it is not JSON. -/
def Parses (text : String) : Prop := loads text ≠ .error .other

def RequestBody.Readable : RequestBody → Prop
  | .none => True
  | .text s => Parses loads s
  | .bytes b => ∃ text, String.fromUTF8? b = some text ∧ Parses loads text
  | .stream => False

def HttpRequest.Readable (request : HttpRequest) : Prop :=
  match request.body with
  | .prepared body => body.Readable loads
  | .httpx (some content) => (RequestBody.bytes content).Readable loads
  | .httpx none => False

end Decode

section Read
variable {loads : String → Except JsonLoadsError Json}

theorem decodeText_ok_iff {text : String} :
    (∃ v, decodeText loads text = .ok v) ↔ Parses loads text := by
  unfold decodeText Parses
  cases loads text with
  | ok value => simp
  | error e => cases e <;> simp

@[simp] theorem decode_text (text : String) :
    decode loads (.text text) = decodeText loads text := rfl

theorem decode_ok_iff {body : RequestBody} :
    (∃ v, decode loads body = .ok v) ↔ body.Readable loads := by
  cases body with
  | none => exact iff_of_true ⟨_, rfl⟩ trivial
  | text s => exact decodeText_ok_iff
  | stream => exact iff_of_false (fun ⟨v, hv⟩ => by cases hv) id
  | bytes b =>
    simp only [decode, RequestBody.Readable]
    cases String.fromUTF8? b with
    | none => simp
    | some text => simpa using decodeText_ok_iff

/-- What is sent can be read back exactly when it is a text that `json.loads` takes. -/
theorem HttpRequest.data_decode_iff {request : HttpRequest} :
    (∃ data v, request.data = .ok data ∧ decode loads data = .ok v) ↔ request.Readable loads := by
  unfold data Readable
  split
  · simp [← decode_ok_iff]
  · simp [← decode_ok_iff]
  · simp

end Read

/-- The classes the wrapper names. -/
inductive ExceptionClass
  | requestsHttpError
  | requestsConnectionError
  | requestsTimeout
  | requestsTooManyRedirects
  | httpxHttpStatusError
  | httpxTimeoutException
  | httpxTooManyRedirects
  deriving DecidableEq

namespace ExceptionClass

def isHttpError : ExceptionClass → Bool
  | .requestsHttpError | .httpxHttpStatusError | .httpxTimeoutException | .httpxTooManyRedirects =>
    true
  | .requestsConnectionError | .requestsTimeout | .requestsTooManyRedirects => false

def isStatusError : ExceptionClass → Bool
  | .requestsHttpError | .httpxHttpStatusError => true
  | _ => false

def isHttpx : ExceptionClass → Bool
  | .httpxHttpStatusError | .httpxTimeoutException | .httpxTooManyRedirects => true
  | _ => false

/-- The exceptions of this class have a `response`, which may be `None`. -/
def hasResponse : ExceptionClass → Bool
  | .httpxTimeoutException | .httpxTooManyRedirects => false
  | _ => true

theorem of_isStatusError {cls : ExceptionClass} (h : cls.isStatusError = true) :
    cls.isHttpError = true ∧ cls.hasResponse = true := by
  cases cls <;> first | exact ⟨rfl, rfl⟩ | cases h

theorem of_not_isHttpError {cls : ExceptionClass} (h : cls.isHttpError = false) :
    cls.isHttpx = false ∧ cls.isStatusError = false := by
  cases cls <;> first | exact ⟨rfl, rfl⟩ | cases h

theorem isStatusError_of_not_hasResponse {cls : ExceptionClass} (h : cls.hasResponse = false) :
    cls.isStatusError = false := by
  cases cls <;> first | rfl | cases h

end ExceptionClass

structure TransportException where
  cls : ExceptionClass
  message : String
  request : Option HttpRequest
  response : Option HttpResponse
  response_eq_none : cls.hasResponse = false → response = none

namespace TransportException

/-- `exc.request`, which `httpx` does not let be read before it is set. -/
def getRequest (exc : TransportException) : Except PyError (Option HttpRequest) :=
  if exc.cls.isHttpx ∧ exc.request = none then .error .runtimeError else .ok exc.request

def getResponse (exc : TransportException) : Except PyError (Option HttpResponse) :=
  if exc.cls.hasResponse then .ok exc.response else .error .attributeError

end TransportException

inductive Raised
  | hookExpectedError (error : String) (detail : RequestDetails)
  | hookRetry (error : String) (detail : RequestDetails)
  | valueError (message : String)
  | other (e : PyError)

section Wrapper
variable (loads : String → Except JsonLoadsError Json) (exc : TransportException)

def noRequestOrResponse : String := "No request/response in error object"

def statusClause : Except PyError Raised := do
  match ← exc.getRequest with
  | none => pure (.valueError noRequestOrResponse)
  | some request =>
    match ← exc.getResponse with
    | none => pure (.valueError noRequestOrResponse)
    | some response =>
      let reqData ← request.data
      -- The text is decoded for the log as well.
      let _ ← decode loads (.text response.text)
      let detail : RequestDetails := {
        requestMethod := request.method
        requestUrl := request.url
        requestBody := ← decode loads reqData
        requestHeaders := request.headers
        responseStatusCode := some response.statusCode
        responseHeaders := response.headers
        responseBody := ← decode loads (.text response.text) }
      pure (if response.statusCode = 410 then .hookExpectedError exc.message detail
        else .hookRetry exc.message detail)

def transportClause : Except PyError Raised := do
  match ← exc.getRequest with
  | none => throw .attributeError
  | some request =>
    let reqData ← request.data
    let detail : RequestDetails := {
      requestMethod := request.method
      requestUrl := request.url
      requestBody := ← decode loads reqData
      requestHeaders := request.headers
      responseStatusCode := none
      responseHeaders := []
      responseBody := .str "" }
    pure (.hookRetry exc.message detail)

/-- `requests_automatic_hook_retry`, around a body that raises `exc`. -/
def requestsAutomaticHookRetry : Raised :=
  match if exc.cls.isHttpError then statusClause loads exc else transportClause loads exc with
  | .ok raised => raised
  | .error e => .other e

end Wrapper

namespace TransportException

/-- An HTTP status error without its request or its response. -/
def MissingPart (exc : TransportException) : Prop :=
  exc.cls.isStatusError ∧ (exc.request = none ∨ exc.response = none)

def Gone (exc : TransportException) : Prop :=
  ∃ response, exc.response = some response ∧ response.statusCode = 410

end TransportException

/-- What the wrapper should make of an exception. -/
structure Converted (exc : TransportException) (raised : Raised) : Prop where
  missing : exc.MissingPart → ∃ message, raised = .valueError message
  gone : ¬ exc.MissingPart → exc.Gone → ∃ error detail, raised = .hookExpectedError error detail
  retried : ¬ exc.MissingPart → ¬ exc.Gone → ∃ error detail, raised = .hookRetry error detail

/-- The exceptions whose parts are there and can be decoded. The timeouts and redirects of
`httpx` are taken for status errors. -/
def Convertible (loads : String → Except JsonLoadsError Json) (exc : TransportException) : Prop :=
  match exc.cls with
  | .requestsHttpError =>
    ∀ request response, exc.request = some request → exc.response = some response →
      request.Readable loads ∧ Parses loads response.text
  | .httpxHttpStatusError =>
    ∃ request, exc.request = some request ∧ ∀ response, exc.response = some response →
      request.Readable loads ∧ Parses loads response.text
  | .httpxTimeoutException | .httpxTooManyRedirects => False
  | .requestsConnectionError | .requestsTimeout | .requestsTooManyRedirects =>
    (∃ request, exc.request = some request ∧ request.Readable loads) ∧ ¬ exc.Gone

section Spec
variable {loads : String → Except JsonLoadsError Json} {exc : TransportException}
  {request : HttpRequest} {response : HttpResponse}

theorem statusClause_readable (hreq : exc.getRequest = .ok (some request))
    (hresp : exc.getResponse = .ok (some response)) (hr : request.Readable loads)
    (hp : Parses loads response.text) :
    ∃ detail, statusClause loads exc = .ok (if response.statusCode = 410 then
      .hookExpectedError exc.message detail else .hookRetry exc.message detail) := by
  obtain ⟨data, v, hdata, hv⟩ := HttpRequest.data_decode_iff.mpr hr
  obtain ⟨t, ht⟩ := decodeText_ok_iff.mpr hp
  unfold statusClause
  simp only [hreq, hresp, hdata, hv, decode_text, ht, bind, Except.bind, pure, Except.pure]
  exact ⟨_, rfl⟩

theorem statusClause_unreadable (hreq : exc.getRequest = .ok (some request))
    (hresp : exc.getResponse = .ok (some response))
    (h : ¬ (request.Readable loads ∧ Parses loads response.text)) :
    ∃ e, statusClause loads exc = .error e := by
  unfold statusClause
  simp only [hreq, hresp, decode_text, bind, Except.bind, pure, Except.pure]
  cases hdata : request.data with
  | error e => exact ⟨e, rfl⟩
  | ok data =>
    cases ht : decodeText loads response.text with
    | error e => exact ⟨e, rfl⟩
    | ok t =>
      cases hv : decode loads data with
      | error e => exact ⟨e, by simp [hv]⟩
      | ok v =>
        have hr := HttpRequest.data_decode_iff.mp ⟨data, v, hdata, hv⟩
        exact absurd ⟨hr, decodeText_ok_iff.mp ⟨t, ht⟩⟩ h

theorem transportClause_readable (hreq : exc.getRequest = .ok (some request))
    (hr : request.Readable loads) :
    ∃ detail, transportClause loads exc = .ok (.hookRetry exc.message detail) := by
  obtain ⟨data, v, hdata, hv⟩ := HttpRequest.data_decode_iff.mpr hr
  unfold transportClause
  simp only [hreq, hdata, hv, bind, Except.bind, pure, Except.pure]
  exact ⟨_, rfl⟩

theorem transportClause_unreadable (hreq : exc.getRequest = .ok (some request))
    (hr : ¬ request.Readable loads) : ∃ e, transportClause loads exc = .error e := by
  unfold transportClause
  simp only [hreq, bind, Except.bind, pure, Except.pure]
  cases hdata : request.data with
  | error e => exact ⟨e, rfl⟩
  | ok data =>
    cases hv : decode loads data with
    | error e => exact ⟨e, by simp [hv]⟩
    | ok v => exact absurd (HttpRequest.data_decode_iff.mp ⟨data, v, hdata, hv⟩) hr

theorem requestsAutomaticHookRetry_of_status (h : exc.cls.isHttpError = true) :
    requestsAutomaticHookRetry loads exc = match statusClause loads exc with
      | .ok raised => raised
      | .error e => .other e := by
  unfold requestsAutomaticHookRetry
  rw [if_pos h]

theorem requestsAutomaticHookRetry_of_transport (h : exc.cls.isHttpError = false) :
    requestsAutomaticHookRetry loads exc = match transportClause loads exc with
      | .ok raised => raised
      | .error e => .other e := by
  unfold requestsAutomaticHookRetry
  rw [if_neg (by simp [h])]

/-- The wrapper should let nothing else through. -/
theorem not_converted_other (e : PyError) : ¬ Converted exc (.other e) := by
  intro h
  by_cases hm : exc.MissingPart
  · obtain ⟨message, hraised⟩ := h.missing hm
    cases hraised
  · by_cases hg : exc.Gone
    · obtain ⟨error, detail, hraised⟩ := h.gone hm hg
      cases hraised
    · obtain ⟨error, detail, hraised⟩ := h.retried hm hg
      cases hraised

theorem converted_valueError (h : exc.MissingPart) (message : String) :
    Converted exc (.valueError message) :=
  ⟨fun _ => ⟨message, rfl⟩, fun hn => absurd h hn, fun hn => absurd h hn⟩

theorem converted_response (hm : ¬ exc.MissingPart) (hresp : exc.response = some response)
    (error : String) (detail : RequestDetails) :
    Converted exc (if response.statusCode = 410 then .hookExpectedError error detail
      else .hookRetry error detail) := by
  refine ⟨fun h => absurd h hm, ?_, ?_⟩
  · rintro _ ⟨response', hresp', hstatus⟩
    obtain rfl := Option.some.inj (hresp.symm.trans hresp')
    exact ⟨error, detail, if_pos hstatus⟩
  · intro _ hg
    have hstatus : response.statusCode ≠ 410 := fun h => hg ⟨response, hresp, h⟩
    exact ⟨error, detail, if_neg hstatus⟩

/-- A status error with both its parts. -/
theorem converted_status_iff (hs : exc.cls.isStatusError = true)
    (hreq : exc.request = some request) (hresp : exc.response = some response) :
    Converted exc (requestsAutomaticHookRetry loads exc) ↔
      request.Readable loads ∧ Parses loads response.text := by
  have hhttp := ExceptionClass.of_isStatusError hs
  have hgetReq : exc.getRequest = .ok (some request) := by
    simp [TransportException.getRequest, hreq]
  have hgetResp : exc.getResponse = .ok (some response) := by
    simp [TransportException.getResponse, hhttp.2, hresp]
  have hm : ¬ exc.MissingPart := by
    simp [TransportException.MissingPart, hreq, hresp]
  rw [requestsAutomaticHookRetry_of_status hhttp.1]
  by_cases h : request.Readable loads ∧ Parses loads response.text
  · obtain ⟨detail, hok⟩ := statusClause_readable hgetReq hgetResp h.1 h.2
    rw [hok]
    exact iff_of_true (converted_response hm hresp _ _) h
  · obtain ⟨e, he⟩ := statusClause_unreadable hgetReq hgetResp h
    rw [he]
    exact iff_of_false (not_converted_other e) h

/-- A status error that comes without one of them, and lets both be asked for. -/
theorem converted_missing (hs : exc.cls.isStatusError = true)
    (hx : exc.cls.isHttpx = true → exc.request ≠ none)
    (h : exc.request = none ∨ exc.response = none) :
    Converted exc (requestsAutomaticHookRetry loads exc) := by
  have hhttp := ExceptionClass.of_isStatusError hs
  have hgetReq : exc.getRequest = .ok exc.request := by
    unfold TransportException.getRequest
    rw [if_neg fun hnone => hx hnone.1 hnone.2]
  have hclause : statusClause loads exc = .ok (.valueError noRequestOrResponse) := by
    unfold statusClause
    rw [hgetReq]
    cases hreq : exc.request with
    | none => rfl
    | some request =>
      have hresp : exc.response = none := h.resolve_left (by simp [hreq])
      simp only [TransportException.getResponse, hhttp.2, hresp, bind, Except.bind, pure,
        Except.pure, if_true]
  rw [requestsAutomaticHookRetry_of_status hhttp.1, hclause]
  exact converted_valueError ⟨hs, h⟩ _

theorem converted_transport_iff (ht : exc.cls.isHttpError = false) :
    Converted exc (requestsAutomaticHookRetry loads exc) ↔
      (∃ request, exc.request = some request ∧ request.Readable loads) ∧ ¬ exc.Gone := by
  have hcls := ExceptionClass.of_not_isHttpError ht
  have hget : exc.getRequest = .ok exc.request := by
    simp [TransportException.getRequest, hcls.1]
  have hm : ¬ exc.MissingPart := by
    simp [TransportException.MissingPart, hcls.2]
  rw [requestsAutomaticHookRetry_of_transport ht]
  cases hreq : exc.request with
  | none =>
    have hclause : transportClause loads exc = .error .attributeError := by
      unfold transportClause
      rw [hget, hreq]
      rfl
    rw [hclause]
    exact iff_of_false (not_converted_other _) (by simp)
  | some request =>
    rw [hreq] at hget
    by_cases hr : request.Readable loads
    · obtain ⟨detail, hok⟩ := transportClause_readable hget hr
      rw [hok]
      constructor
      · intro h
        refine ⟨⟨request, rfl, hr⟩, fun hg => ?_⟩
        obtain ⟨error, detail', hraised⟩ := h.gone hm hg
        cases hraised
      · rintro ⟨-, hg⟩
        exact ⟨fun h => absurd h hm, fun _ h => absurd h hg, fun _ _ => ⟨_, _, rfl⟩⟩
    · obtain ⟨e, he⟩ := transportClause_unreadable hget hr
      rw [he]
      refine iff_of_false (not_converted_other e) ?_
      rintro ⟨⟨request', heq, hr'⟩, -⟩
      cases heq
      exact hr hr'

/-- The two classes of `httpx` that are caught too early. -/
theorem not_converted_httpx (hh : exc.cls.isHttpError = true) (hn : exc.cls.hasResponse = false) :
    ¬ Converted exc (requestsAutomaticHookRetry loads exc) := by
  have hx := ExceptionClass.isStatusError_of_not_hasResponse hn
  have hm : ¬ exc.MissingPart := by
    simp [TransportException.MissingPart, hx]
  have hg : ¬ exc.Gone := by
    simp [TransportException.Gone, exc.response_eq_none hn]
  rw [requestsAutomaticHookRetry_of_status hh]
  intro h
  obtain ⟨error, detail, hraised⟩ := h.retried hm hg
  revert hraised
  unfold statusClause
  cases hget : exc.getRequest with
  | error e => simp [bind, Except.bind]
  | ok request =>
    cases request <;>
      simp [TransportException.getResponse, hn, bind, Except.bind, pure, Except.pure]

/-- The `httpx` error whose request was never set cannot be asked for it. -/
theorem not_converted_request_unset (hh : exc.cls.isHttpError = true)
    (hx : exc.cls.isHttpx = true) (hreq : exc.request = none) :
    ¬ Converted exc (requestsAutomaticHookRetry loads exc) := by
  have hclause : statusClause loads exc = .error .runtimeError := by
    unfold statusClause TransportException.getRequest
    rw [if_pos ⟨hx, hreq⟩]
    rfl
  rw [requestsAutomaticHookRetry_of_status hh, hclause]
  exact not_converted_other _

end Spec

/-- The wrapper does what it should of the exceptions it can take apart, and of no others. -/
theorem hook_retry_iff (loads : String → Except JsonLoadsError Json) (exc : TransportException) :
    Converted exc (requestsAutomaticHookRetry loads exc) ↔ Convertible loads exc := by
  cases hc : exc.cls with
  | requestsHttpError =>
    simp only [Convertible, hc]
    have hs : exc.cls.isStatusError = true := by rw [hc]; rfl
    have hx : exc.cls.isHttpx = true → exc.request ≠ none := by simp [hc, ExceptionClass.isHttpx]
    cases hreq : exc.request with
    | none => exact iff_of_true (converted_missing hs hx (.inl hreq)) (by simp)
    | some request =>
      cases hresp : exc.response with
      | none => exact iff_of_true (converted_missing hs hx (.inr hresp)) (by simp)
      | some response => simpa using converted_status_iff hs hreq hresp
  | httpxHttpStatusError =>
    simp only [Convertible, hc]
    have hs : exc.cls.isStatusError = true := by rw [hc]; rfl
    cases hreq : exc.request with
    | none =>
      have hno : ¬ Converted exc (requestsAutomaticHookRetry loads exc) :=
        not_converted_request_unset (by rw [hc]; rfl) (by rw [hc]; rfl) hreq
      exact iff_of_false hno (by simp)
    | some request =>
      cases hresp : exc.response with
      | none =>
        have hyes : Converted exc (requestsAutomaticHookRetry loads exc) :=
          converted_missing hs (by simp [hreq]) (.inr hresp)
        exact iff_of_true hyes (by simp)
      | some response => simpa using converted_status_iff hs hreq hresp
  | httpxTimeoutException =>
    simp only [Convertible, hc]
    exact iff_of_false (not_converted_httpx (by rw [hc]; rfl) (by rw [hc]; rfl)) id
  | httpxTooManyRedirects =>
    simp only [Convertible, hc]
    exact iff_of_false (not_converted_httpx (by rw [hc]; rfl) (by rw [hc]; rfl)) id
  | requestsConnectionError =>
    simp only [Convertible, hc]
    exact converted_transport_iff (by rw [hc]; rfl)
  | requestsTimeout =>
    simp only [Convertible, hc]
    exact converted_transport_iff (by rw [hc]; rfl)
  | requestsTooManyRedirects =>
    simp only [Convertible, hc]
    exact converted_transport_iff (by rw [hc]; rfl)

/-- A push that times out is not retried: the clause asks the timeout for its response. -/
theorem httpx_timeout_escapes :
    let request : HttpRequest := {
      method := "POST", url := "https://fcm.googleapis.com/v1/projects/p/messages:send"
      body := .httpx (some ⟨#[]⟩), headers := [] }
    let exc : TransportException := {
      cls := .httpxTimeoutException, message := "timed out", request := some request
      response := none, response_eq_none := fun _ => rfl }
    let loads : String → Except JsonLoadsError Json := fun _ => .error .jsonDecodeError
    requestsAutomaticHookRetry loads exc = .other .attributeError ∧
      ¬ Converted exc (requestsAutomaticHookRetry loads exc) := by
  intro request exc loads
  have hraised : requestsAutomaticHookRetry loads exc = .other .attributeError := rfl
  refine ⟨hraised, fun h => ?_⟩
  obtain ⟨error, detail, hretry⟩ := h.retried (by simp [TransportException.MissingPart,
    ExceptionClass.isStatusError, exc]) (by simp [TransportException.Gone, exc])
  rw [hraised] at hretry
  cases hretry

end WazoWebhookd
