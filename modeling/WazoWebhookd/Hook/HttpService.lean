import WazoWebhookd.Hook.CeleryTasks
import WazoWebhookd.Hook.Helpers
import WazoWebhookd.Library.Failing
import WazoWebhookd.Library.KeyedList

/-! The http service: the request made for an event, and what the hook gives of its answer. -/
namespace WazoWebhookd

/-- A config as `HTTPSubscriptionConfigSchema` loads it. -/
structure HttpSubscriptionConfigDict where
  body : Option String
  method : String
  url : String
  verifyCertificate : Option String
  contentType : Option String

/-- The value of a parameter of a header; one with a charset is a tuple. -/
inductive ParamValue
  | text (s : String)
  | encoded (charset language : Option String) (value : String)

def ParamValue.truthy : ParamValue → Bool
  | .text s => s ≠ ""
  | .encoded .. => true

inductive Verify
  | unset
  | flag (b : Bool)
  | path (s : String)

/-- What `session.request` is called with. -/
structure RequestArgs where
  method : String
  url : String
  data : ByteArray
  verify : Verify
  contentType : String

structure PreparedRequest where
  method : String
  url : String
  body : RequestBody
  headers : List (String × String)

def PreparedRequest.toHttpRequest (r : PreparedRequest) : HttpRequest where
  method := r.method
  url := r.url
  body := .prepared r.body
  headers := r.headers

/-- A response of `requests`, with the request it answers. -/
structure RequestsResponse extends HttpResponse where
  request : PreparedRequest

inductive Sent
  | answered (r : RequestsResponse)
  | transport (exc : TransportException)
  | exception (message : String)

inductive RunError
  | keyError (key : String)
  | typeError
  | library (message : String)
  | python (e : PyError)

/-- What the service uses of jinja2, of the standard library and of `requests`. -/
structure HttpLibraries where
  render : String → List (String × Json) → Except String String
  hostname : String → Except String (Option String)
  gethostbyname : String → Except String String
  getContentType : String → String
  getParams : String → Except String (List (String × ParamValue))
  lower : String → String
  dumps : Json → Except String String
  encode : String → String → Except String ByteArray
  request : RequestArgs → Sent
  httpErrorMessage : RequestsResponse → String
  loads : String → Except JsonLoadsError Json
  str : RunError → String

/-- The request that was answered has the data as its body, unless that is empty or a redirection
dropped it. -/
def HttpLibraries.Documented (libs : HttpLibraries) : Prop :=
  ∀ args r, libs.request args = .answered r →
    r.request.body = .none ∨ r.request.body = .bytes args.data

def headersJson (headers : List (String × String)) : Json :=
  .obj (headers.map fun p => (p.1, .str p.2))

def RequestDetails.fields (d : RequestDetails) : List (String × Json) :=
  [("request_method", .str d.requestMethod), ("request_url", .str d.requestUrl),
    ("request_body", d.requestBody), ("request_headers", headersJson d.requestHeaders),
    ("response_status_code", d.responseStatusCode.elim .null fun code => .num code),
    ("response_headers", headersJson d.responseHeaders), ("response_body", d.responseBody)]

namespace HttpService

structure Content where
  mimetype : String
  options : List (String × ParamValue)
  text : String

def Content.charset (content : Content) : Except RunError String :=
  match content.options.lookup "charset" with
  | none => .error (.keyError "charset")
  | some (.encoded ..) => .error .typeError
  | some (.text charset) => .ok charset

def buildContentTypeHeader (mimetype : String) (options : List (String × ParamValue)) :
    Except RunError String := do
  let contentTypeOptions ← options.mapM fun
    | (key, .text value) => pure (key ++ "=" ++ value)
    | (_, .encoded ..) => throw .typeError
  pure (if contentTypeOptions.isEmpty then mimetype
    else mimetype ++ "; " ++ "; ".intercalate contentTypeOptions)

def verifyOf : Option String → Verify
  | none => .unset
  | some "true" => .flag true
  | some "false" => .flag false
  | some path => .path path

section Service
variable (libs : HttpLibraries)

def parseContentType (contentType : String) :
    Except RunError (String × List (String × ParamValue)) := do
  let mediaType := libs.getContentType contentType
  let params ← (libs.getParams contentType).mapError .library
  let params := params.filter fun p => libs.lower p.1 ≠ libs.lower mediaType ∧ p.2.truthy
  pure (mediaType, KeyedList.ofPairs (params.map fun p => (libs.lower p.1, p.2)))

def urlIsLocalhost (url : String) : Except RunError Bool := do
  match truthy (← (libs.hostname url).mapError .library) with
  | none => pure false
  | some remoteHost =>
    let remoteAddress ← (libs.gethostbyname remoteHost).mapError .library
    pure (remoteAddress = "127.0.0.1")

/-- The services of the host are not for the users. -/
def refusesUrl (ownerUserUuid : Option String) (url : String) : Except RunError Bool :=
  match truthy ownerUserUuid with
  | none => .ok false
  | some _ => urlIsLocalhost libs url

def renderContent (options : HttpSubscriptionConfigDict) (values : List (String × Json))
    (data : Json) : Except RunError Content :=
  match truthy options.body with
  | some body => do
    let (ctMimetype, ctOptions) ←
      parseContentType libs (options.contentType.getD "text/plain")
    let ctOptions := if (ctOptions.lookup "charset").isSome then ctOptions
      else ctOptions ++ [("charset", .text "utf-8")]
    pure ⟨ctMimetype, ctOptions, ← (libs.render body values).mapError .library⟩
  | none => do
    pure ⟨"application/json", [("charset", .text "utf-8")],
      ← (libs.dumps data).mapError .library⟩

def Content.encode (content : Content) : Except RunError ByteArray := do
  (libs.encode content.text (← content.charset)).mapError .library

def getItem (event : List (String × Json)) (key : String) : Except RunError Json :=
  match event.lookup key with
  | none => .error (.keyError key)
  | some value => .ok value

def templateValues (event : List (String × Json)) : Except RunError (List (String × Json)) := do
  pure [("event_name", ← getItem event "name"), ("event", ← getItem event "data"),
    ("wazo_uuid", ← getItem event "origin_uuid")]

/-- The part of `run` before the request; `none` where the url is refused. -/
def requestArgs (options : HttpSubscriptionConfigDict) (ownerUserUuid : Option String)
    (event : List (String × Json)) : Except RunError (Option RequestArgs) := do
  let values ← templateValues event
  let url ← (libs.render options.url values).mapError .library
  if ← refusesUrl libs ownerUserUuid url then pure none
  else
    let content ← renderContent libs options values (← getItem event "data")
    let data ← content.encode libs
    let contentType ← buildContentTypeHeader content.mimetype content.options
    pure (some ⟨options.method, url, data, verifyOf options.verifyCertificate, contentType⟩)

def raiseForStatus (r : RequestsResponse) : Option TransportException :=
  if 400 ≤ r.statusCode ∧ r.statusCode < 600 then
    some {
      cls := .requestsHttpError
      message := libs.httpErrorMessage r
      request := some r.request.toHttpRequest
      response := some r.toHttpResponse
      response_eq_none := by simp [ExceptionClass.hasResponse] }
  else none

/-- `requests_automatic_detail` of a response of `requests`. -/
def requestsAutomaticDetail (r : RequestsResponse) : Except PyError RequestDetails := do
  pure {
    requestMethod := r.request.method
    requestUrl := r.request.url
    requestBody := ← decode libs.loads r.request.body
    requestHeaders := r.request.headers
    responseStatusCode := some r.statusCode
    responseHeaders := r.headers
    responseBody := ← decode libs.loads (.text r.text) }

inductive RunEnd
  | returned (detail : Option RequestDetails)
  | raised (raised : Raised)
  | failed (e : RunError)

def run (options : HttpSubscriptionConfigDict) (ownerUserUuid : Option String)
    (event : List (String × Json)) : RunEnd :=
  match requestArgs libs options ownerUserUuid event with
  | .error e => .failed e
  | .ok none => .returned none
  | .ok (some args) =>
    match libs.request args with
    | .exception message => .failed (.library message)
    | .transport exc => .raised (requestsAutomaticHookRetry libs.loads exc)
    | .answered r =>
      match raiseForStatus libs r with
      | some exc => .raised (requestsAutomaticHookRetry libs.loads exc)
      | none =>
        -- The wrapper lets the errors of the detail through.
        match requestsAutomaticDetail libs r with
        | .ok detail => .returned (some detail)
        | .error e => .failed (.python e)

/-- What the task that runs the hook sees of it. -/
def RunEnd.outcome : RunEnd → HookOutcome
  | .returned detail => .success (detail.elim .null fun d => .obj d.fields)
  | .raised (.hookExpectedError error detail) =>
    .hookExpectedError (.obj (("error", .str error) :: detail.fields))
  | .raised (.hookRetry error detail) => .hookRetry (.obj (("error", .str error) :: detail.fields))
  | .raised (.valueError message) => .exception message
  | .raised (.other e) => .exception (libs.str (.python e))
  | .failed e => .exception (libs.str e)

end Service

end HttpService

open HttpService

def sentBody (libs : HttpLibraries) (options : HttpSubscriptionConfigDict)
    (event : List (String × Json)) : Except RunError ByteArray := do
  let values ← templateValues event
  let content ← renderContent libs options values (← getItem event "data")
  content.encode libs

/-- The bytes are those of a text in UTF-8, JSON or not. -/
def Reread (loads : String → Except JsonLoadsError Json) (data : ByteArray) : Prop :=
  ∃ text, String.fromUTF8? data = some text ∧ Parses loads text

section Spec
variable {libs : HttpLibraries} {options : HttpSubscriptionConfigDict}
  {ownerUserUuid : Option String} {event : List (String × Json)}

theorem content_of_requestArgs {args : RequestArgs}
    (h : requestArgs libs options ownerUserUuid event = .ok (some args)) :
    ∃ values data content, templateValues event = .ok values ∧ getItem event "data" = .ok data ∧
      renderContent libs options values data = .ok content ∧
      content.encode libs = .ok args.data ∧
      buildContentTypeHeader content.mimetype content.options = .ok args.contentType := by
  unfold requestArgs at h
  obtain ⟨values, hvalues, h⟩ := Except.exists_of_bind_eq_ok h
  obtain ⟨url, -, h⟩ := Except.exists_of_bind_eq_ok h
  obtain ⟨refused, -, h⟩ := Except.exists_of_bind_eq_ok h
  cases refused with
  | true => cases h
  | false =>
    obtain ⟨data, hdata, h⟩ := Except.exists_of_bind_eq_ok h
    obtain ⟨content, hcontent, h⟩ := Except.exists_of_bind_eq_ok h
    obtain ⟨bytes, hbytes, h⟩ := Except.exists_of_bind_eq_ok h
    obtain ⟨contentType, htype, h⟩ := Except.exists_of_bind_eq_ok h
    cases h
    exact ⟨values, data, content, hvalues, hdata, hcontent, hbytes, htype⟩

theorem sentBody_of_requestArgs {args : RequestArgs}
    (h : requestArgs libs options ownerUserUuid event = .ok (some args)) :
    sentBody libs options event = .ok args.data := by
  obtain ⟨values, data, content, hvalues, hdata, hcontent, hencode, -⟩ := content_of_requestArgs h
  unfold sentBody
  rw [Except.bind_of_eq_ok hvalues, Except.bind_of_eq_ok hdata, Except.bind_of_eq_ok hcontent]
  exact hencode

theorem requestsAutomaticDetail_ok_iff {r : RequestsResponse} :
    (∃ detail, requestsAutomaticDetail libs r = .ok detail) ↔
      r.request.body.Readable libs.loads ∧ Parses libs.loads r.text := by
  rw [← decode_ok_iff, ← decodeText_ok_iff]
  unfold requestsAutomaticDetail
  rw [decode_text]
  cases decode libs.loads r.request.body with
  | error e => simp [bind, Except.bind]
  | ok body =>
    cases decodeText libs.loads r.text with
    | error e => simp [bind, Except.bind]
    | ok text => simp [bind, Except.bind, pure, Except.pure]

/-- The http client sends the data, or nothing. -/
theorem readable_iff {loads : String → Except JsonLoadsError Json} {body : RequestBody}
    {data : ByteArray} (h : body = .none ∨ body = .bytes data) :
    body.Readable loads ↔ body = .none ∨ Reread loads data := by
  rcases h with rfl | rfl
  · exact iff_of_true trivial (.inl rfl)
  · simp [RequestBody.Readable, Reread]

/-- The task logs as a success what returns, and nothing else. -/
theorem submitted_success_iff {config : HookConfig} {hookUuid : String}
    {subscription : SubscriptionDict} {payload : Json} {retries : ℕ} {attempt : Attempt}
    {log : List SubscriptionLog} :
    (hookRunnerTask config hookUuid subscription payload retries attempt log).submitted.status =
      .success ↔ ∃ detail, attempt.outcome = .success detail := by
  have hsubmitted : ∀ hooklog next,
      (submitHookLog attempt log hooklog next).submitted = hooklog := by
    intro hooklog next
    unfold submitHookLog
    split <;> rfl
  unfold hookRunnerTask
  cases ho : attempt.outcome with
  | success detail => simp [hsubmitted, hookLog]
  | hookExpectedError detail => simp [hsubmitted, hookLog]
  | exception message => simp [hsubmitted, hookLog]
  | hookRetry detail =>
    simp only [hsubmitted, hookLog]
    split <;> simp

theorem run_of_answered {args : RequestArgs} {r : RequestsResponse}
    (hargs : requestArgs libs options ownerUserUuid event = .ok (some args))
    (hanswer : libs.request args = .answered r)
    (hstatus : ¬ (400 ≤ r.statusCode ∧ r.statusCode < 600)) :
    run libs options ownerUserUuid event = match requestsAutomaticDetail libs r with
      | .ok detail => .returned (some detail)
      | .error e => .failed (.python e) := by
  unfold run raiseForStatus
  simp only [hargs, hanswer, if_neg hstatus]

end Spec

/-- Once the server has answered well, the detail is returned, and the attempt logged as a
success, exactly when the body that was sent is a text in UTF-8. -/
theorem run_returns_iff {libs : HttpLibraries} (hl : libs.Documented)
    {options : HttpSubscriptionConfigDict} {ownerUserUuid : Option String}
    {event : List (String × Json)} {data : ByteArray}
    (hdata : sentBody libs options event = .ok data) {args : RequestArgs}
    (hargs : requestArgs libs options ownerUserUuid event = .ok (some args))
    {r : RequestsResponse} (hanswer : libs.request args = .answered r)
    (hstatus : ¬ (400 ≤ r.statusCode ∧ r.statusCode < 600)) :
    ((∃ detail, run libs options ownerUserUuid event = .returned (some detail)) ↔
      (r.request.body = .none ∨ Reread libs.loads data) ∧ Parses libs.loads r.text) ∧
    ∀ config hookUuid subscription payload retries attempt log,
      attempt.outcome = (run libs options ownerUserUuid event).outcome libs →
      ((hookRunnerTask config hookUuid subscription payload retries attempt log).submitted.status =
        .success ↔
        (r.request.body = .none ∨ Reread libs.loads data) ∧ Parses libs.loads r.text) := by
  have hsame : args.data = data :=
    Except.ok.inj ((sentBody_of_requestArgs hargs).symm.trans hdata)
  have hbody : r.request.body = .none ∨ r.request.body = .bytes data := hsame ▸ hl args r hanswer
  have hdetail : (∃ detail, requestsAutomaticDetail libs r = .ok detail) ↔
      (r.request.body = .none ∨ Reread libs.loads data) ∧ Parses libs.loads r.text := by
    rw [requestsAutomaticDetail_ok_iff, readable_iff hbody]
  simp only [submitted_success_iff]
  rw [run_of_answered hargs hanswer hstatus]
  cases hd : requestsAutomaticDetail libs r with
  | error e =>
    have hno : ¬ ((r.request.body = .none ∨ Reread libs.loads data) ∧ Parses libs.loads r.text) :=
      fun h => by
        obtain ⟨detail, hok⟩ := hdetail.mpr h
        cases hd.symm.trans hok
    refine ⟨iff_of_false (by simp) hno, ?_⟩
    intro _ _ _ _ _ attempt _ ho
    exact iff_of_false (by simp [ho, RunEnd.outcome]) hno
  | ok detail =>
    have hyes := hdetail.mp ⟨detail, hd⟩
    refine ⟨iff_of_true ⟨detail, rfl⟩ hyes, ?_⟩
    intro _ _ _ _ _ attempt _ ho
    exact iff_of_true ⟨_, ho⟩ hyes

/-- Libraries that know two charsets and the names in lower case, and a server that answers a
post with an empty text. -/
def HttpLibraries.plain : HttpLibraries where
  render template _ := .ok template
  hostname _ := .ok (some "example.com")
  gethostbyname _ := .ok "192.0.2.1"
  getContentType _ := "text/plain"
  getParams contentType :=
    if contentType = "text/plain; charset=iso-8859-1" then
      .ok [("text/plain", .text ""), ("charset", .text "iso-8859-1")]
    else .ok [("text/plain", .text "")]
  lower name := name
  dumps _ := .ok "null"
  encode text charset :=
    if charset = "iso-8859-1" then
      if text.toList.all fun c => c.toNat < 256 then
        .ok ⟨(text.toList.map fun c => c.toNat.toUInt8).toArray⟩
      else .error "character not in range(256)"
    else if charset = "utf-8" then .ok text.toUTF8
    else .error "unknown encoding"
  request args := .answered {
    statusCode := 200
    headers := []
    text := ""
    request := {
      method := "POST"
      url := args.url
      body := if args.data.isEmpty then .none else .bytes args.data
      headers := [("Content-Type", args.contentType)] } }
  httpErrorMessage _ := ""
  loads text := if text = "null" then .ok .null else .error .jsonDecodeError
  str _ := ""

theorem HttpLibraries.documented_plain : HttpLibraries.plain.Documented := by
  intro args r h
  cases h
  by_cases hd : args.data.isEmpty <;> simp [hd]

def accentedBody (contentType : Option String) : HttpSubscriptionConfigDict where
  body := some "é"
  method := "post"
  url := "http://example.com"
  verifyCertificate := none
  contentType := contentType

def someEvent : List (String × Json) :=
  [("name", .str "call_created"), ("data", .obj []), ("origin_uuid", .str "w")]

theorem utf8_body_returns :
    ∃ detail, run HttpLibraries.plain (accentedBody none) none someEvent =
      .returned (some detail) := by
  have hdata : sentBody HttpLibraries.plain (accentedBody none) someEvent =
      .ok ⟨#[0xC3, 0xA9]⟩ := rfl
  have hargs : requestArgs HttpLibraries.plain (accentedBody none) none someEvent = .ok (some
      ⟨"post", "http://example.com", ⟨#[0xC3, 0xA9]⟩, .unset, "text/plain; charset=utf-8"⟩) := rfl
  have h := run_returns_iff HttpLibraries.documented_plain hdata hargs rfl (by decide)
  have hjson : ∀ text ≠ "null", Parses HttpLibraries.plain.loads text := by
    intro text htext
    simp [Parses, HttpLibraries.plain, htext]
  exact h.1.mpr ⟨.inr ⟨"é", by decide, hjson _ (by decide)⟩, hjson _ (by decide)⟩

/-- A body delivered in another charset is reported as an error. -/
theorem latin1_body_fails :
    let options := accentedBody (some "text/plain; charset=iso-8859-1")
    (∃ args r, requestArgs HttpLibraries.plain options none someEvent = .ok (some args) ∧
      HttpLibraries.plain.request args = .answered r ∧ r.statusCode = 200) ∧
    run HttpLibraries.plain options none someEvent = .failed (.python .unicodeDecodeError) ∧
    ¬ ∃ detail, run HttpLibraries.plain options none someEvent = .returned (some detail) := by
  intro options
  have hsent : ∃ args r, requestArgs HttpLibraries.plain
      (accentedBody (some "text/plain; charset=iso-8859-1")) none someEvent = .ok (some args) ∧
      HttpLibraries.plain.request args = .answered r ∧ r.statusCode = 200 :=
    ⟨_, _, rfl, rfl, rfl⟩
  have hrun : run HttpLibraries.plain
      (accentedBody (some "text/plain; charset=iso-8859-1")) none someEvent =
        .failed (.python .unicodeDecodeError) := rfl
  exact ⟨hsent, hrun, by simp [options, hrun]⟩

end WazoWebhookd
