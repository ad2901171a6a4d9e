import WazoWebhookd.Library.ExceptionClasses
import WazoWebhookd.Library.Failing
import WazoWebhookd.Library.HeaderParams
import WazoWebhookd.Library.Json
import WazoWebhookd.Library.Retry

/-! The client of FCM: its requests, the answers it keeps and what it reads of them. -/
namespace WazoWebhookd
open ExceptionClasses RaisedClass Failing

/-- The classes of the language. -/
def exceptionClass : RaisedClass := ⟨"Exception", ["BaseException", "object"]⟩

def valueErrorClass : RaisedClass := exceptionClass.derive "ValueError"

def typeErrorClass : RaisedClass := exceptionClass.derive "TypeError"

def attributeErrorClass : RaisedClass := exceptionClass.derive "AttributeError"

def lookupErrorClass : RaisedClass := exceptionClass.derive "LookupError"

def keyErrorClass : RaisedClass := lookupErrorClass.derive "KeyError"

def indexErrorClass : RaisedClass := lookupErrorClass.derive "IndexError"

def recursionErrorClass : RaisedClass :=
  (exceptionClass.derive "RuntimeError").derive "RecursionError"

def jsonDecodeErrorClass : RaisedClass := valueErrorClass.derive "json.JSONDecodeError"

/-- The classes of `fcm_client`. -/
def fcmErrorClass : RaisedClass := exceptionClass.derive "fcm_client.FCMError"

def authenticationErrorClass : RaisedClass :=
  fcmErrorClass.derive "fcm_client.AuthenticationError"

def fcmNotRegisteredErrorClass : RaisedClass :=
  fcmErrorClass.derive "fcm_client.FCMNotRegisteredError"

def fcmSenderIdMismatchClass : RaisedClass :=
  fcmErrorClass.derive "fcm_client.FCMSenderIDMismatch"

def fcmServerErrorClass : RaisedClass := fcmErrorClass.derive "fcm_client.FCMServerError"

def invalidDataErrorClass : RaisedClass := fcmErrorClass.derive "fcm_client.InvalidDataError"

def retryAfterExceptionClass : RaisedClass :=
  exceptionClass.derive "fcm_client.RetryAfterException"

/-- An exception: its class and its arguments. -/
structure FcmException where
  cls : RaisedClass
  args : List Json

/-- A response of FCM. The names of its headers are in lower case, and `json` is `none` for a text
that is not JSON. -/
structure FcmHTTPResponse where
  statusCode : ℕ
  headers : List (String × String)
  text : String
  json : Option Json

/-- The blanks that `int` takes around the digits of a header, whose characters are those of
Latin-1. -/
def isLatinSpace (c : Char) : Bool := c.toNat ∈ [9, 10, 11, 12, 13, 32, 133, 160]

/-- Digits, which single underscores may group. -/
def readDigits : ℕ → Bool → List Char → Option ℕ
  | n, afterDigit, [] => if afterDigit then some n else none
  | n, afterDigit, c :: s =>
    if c.isDigit then readDigits (10 * n + (c.toNat - 48)) true s
    else if c = '_' ∧ afterDigit then readDigits n false s
    else none

/-- `int(s)`, which takes no more than 4300 digits. -/
def pyInt (s : String) : Option ℤ :=
  if 4300 < (s.toList.filter (·.isDigit)).length then none
  else match HeaderParams.strip isLatinSpace s.toList with
    | '-' :: digits => (readDigits 0 false digits).map fun n => -n
    | '+' :: digits => (readDigits 0 false digits).map fun n => n
    | digits => (readDigits 0 false digits).map fun n => n

def pyIntOf (s : String) : Except FcmException ℤ :=
  match pyInt s with
  | some i => .ok i
  | none => .error ⟨valueErrorClass, [.str s]⟩

/-- The statuses after which the session of `requests_session` sends a request again: those of its
`Retry`, those that `urllib3` adds where the response has a `Retry-After`, and the redirections. -/
def resentStatuses : List ℕ := [502, 503] ++ [413, 429] ++ [301, 302, 303, 307, 308]

/-- A call of `session.post`: the answers to the requests it makes, `none` where no response came,
and what it returns or raises. -/
structure SessionPost where
  answers : List (Option FcmHTTPResponse)
  result : Except FcmException FcmHTTPResponse
  status_mem : ∀ response, some response ∈ answers.dropLast →
    response.statusCode ∈ resentStatuses
  last_eq : ∀ response, result = .ok response → answers.getLast? = some (some response)

def SessionPost.single (response : FcmHTTPResponse) : SessionPost where
  answers := [some response]
  result := .ok response
  status_mem _ h := by cases h
  last_eq _ h := by rw [Except.ok.inj h]; rfl

namespace BaseAPI

/-- A request that was made, and its response. -/
structure Post where
  payload : String
  response : Option FcmHTTPResponse

/-- The requests that a client has made, and the responses that it keeps. -/
structure Session where
  posts : List Post
  sendRequestResponses : List FcmHTTPResponse

abbrev ClientM := Failing Session FcmException

/-- The test of `do_request` on the header `Retry-After`. -/
def asksRetry (response : FcmHTTPResponse) : Except FcmException Bool :=
  match response.headers.lookup "retry-after" with
  | none => .ok false
  | some value => (pyIntOf value).map (0 < ·)

def sessionPost (payload : String) (call : SessionPost) : ClientM FcmHTTPResponse := do
  modify fun w => { w with posts := w.posts ++ call.answers.map (⟨payload, ·⟩) }
  ofExcept call.result

/-- `do_request`, of which the interpreter allows so many calls within each other, with what
becomes of its calls of `session.post`. -/
def doRequest (payload : String) : ℕ → (ℕ → SessionPost) → ClientM FcmHTTPResponse
  | 0, _ => throw ⟨recursionErrorClass, []⟩
  | depth + 1, calls => do
    let response ← sessionPost payload (calls 0)
    let again ← ofExcept (asksRetry response)
    if again then doRequest payload depth fun i => calls (i + 1)
    else pure response

/-- The loop of `send_request`, with the calls of `session.post` for each payload. -/
def sendPayloads (depth : ℕ) : (ℕ → ℕ → SessionPost) → List String → ClientM Unit
  | _, [] => pure ()
  | calls, payload :: payloads => do
    let response ← doRequest payload depth (calls 0)
    modify fun w => { w with sendRequestResponses := w.sendRequestResponses ++ [response] }
    sendPayloads depth (fun p => calls (p + 1)) payloads

def sendRequest (depth : ℕ) (calls : ℕ → ℕ → SessionPost) (payloads : List String) :
    ClientM Unit := do
  modify fun w => { w with sendRequestResponses := [] }
  sendPayloads depth calls payloads

/-- What `do_request` makes of a call: the answer to its test, or an exception. -/
def asksAgain (call : SessionPost) : Except FcmException Bool := do
  let response ← call.result
  asksRetry response

def again (call : SessionPost) : Bool :=
  match asksAgain call with
  | .ok again => again
  | .error _ => false

def postsOfCall (payload : String) (call : SessionPost) : List Post :=
  call.answers.map (⟨payload, ·⟩)

/-- The requests that `do_request` makes for a payload. -/
def postsOf (payload : String) (depth : ℕ) (calls : ℕ → SessionPost) : List Post :=
  (Retry.seen again depth calls).flatMap (postsOfCall payload)

section Spec
variable {payload : String} {depth : ℕ} {calls : ℕ → SessionPost} {w : Session}

theorem again_iff {call : SessionPost} : again call ↔ asksAgain call = .ok true := by
  unfold again
  cases asksAgain call <;> simp

def Session.posted (w : Session) (payload : String) (call : SessionPost) : Session :=
  { w with posts := w.posts ++ postsOfCall payload call }

theorem exec_sessionPost (payload : String) (call : SessionPost) (w : Session) :
    exec (sessionPost payload call) w = (call.result, w.posted payload call) := by
  cases hresult : call.result <;> simp [sessionPost, exec_bind, hresult] <;> rfl

theorem exec_doRequest_succ (payload : String) (depth : ℕ) (calls : ℕ → SessionPost)
    (w : Session) :
    exec (doRequest payload (depth + 1) calls) w =
      match (calls 0).result, asksAgain (calls 0) with
      | .ok response, .ok false => (.ok response, w.posted payload (calls 0))
      | .ok _, .ok true =>
        exec (doRequest payload depth fun i => calls (i + 1)) (w.posted payload (calls 0))
      | .ok _, .error e => (.error e, w.posted payload (calls 0))
      | .error e, _ => (.error e, w.posted payload (calls 0)) := by
  have hpost := exec_sessionPost payload (calls 0) w
  unfold asksAgain
  cases hresult : (calls 0).result with
  | error e =>
    rw [hresult] at hpost
    rw [doRequest, exec_bind_of_error hpost]
  | ok response =>
    rw [hresult] at hpost
    rw [doRequest, exec_bind_of_ok hpost, exec_bind, exec_ofExcept]
    simp only [Bind.bind, Except.bind]
    cases asksRetry response with
    | error e => rfl
    | ok b => cases b <;> rfl

theorem postsOf_of_again (h : again (calls 0)) :
    postsOf payload (depth + 1) calls =
      postsOfCall payload (calls 0) ++ postsOf payload depth fun i => calls (i + 1) := by
  rw [postsOf, Retry.seen_succ h]
  rfl

theorem postsOf_of_not (h : ¬ again (calls 0)) :
    postsOf payload (depth + 1) calls = postsOfCall payload (calls 0) := by
  rw [postsOf, Retry.seen_of_not h, List.flatMap_singleton]

/-- The call gives a response that does not tell to ask again. -/
def Final (call : SessionPost) : Prop := asksAgain call = .ok false

theorem not_again_of_error {call : SessionPost} {e : FcmException}
    (h : asksAgain call = .error e) : ¬ again call := by
  simp [again_iff, h]

theorem Final.not_again {call : SessionPost} (h : Final call) : ¬ again call := by
  rw [again_iff, h]
  simp

theorem exec_doRequest_cases (payload : String) (depth : ℕ) (calls : ℕ → SessionPost)
    (w : Session) :
    (∃ response, (calls 0).result = .ok response ∧ Final (calls 0) ∧
      exec (doRequest payload (depth + 1) calls) w =
        (.ok response, w.posted payload (calls 0))) ∨
    (again (calls 0) ∧ exec (doRequest payload (depth + 1) calls) w =
      exec (doRequest payload depth fun i => calls (i + 1)) (w.posted payload (calls 0))) ∨
    (¬ again (calls 0) ∧ ¬ Final (calls 0) ∧ ∃ e,
      exec (doRequest payload (depth + 1) calls) w = (.error e, w.posted payload (calls 0))) := by
  rw [exec_doRequest_succ]
  cases hresult : (calls 0).result with
  | error e =>
    have hasks : asksAgain (calls 0) = .error e := by
      rw [asksAgain, hresult]
      rfl
    exact .inr (.inr ⟨not_again_of_error hasks, by simp [Final, hasks], e, rfl⟩)
  | ok response =>
    cases hasks : asksAgain (calls 0) with
    | error e => exact .inr (.inr ⟨not_again_of_error hasks, by simp [Final, hasks], e, rfl⟩)
    | ok b =>
      cases b with
      | false => exact .inl ⟨response, rfl, hasks, rfl⟩
      | true => exact .inr (.inl ⟨again_iff.mpr hasks, rfl⟩)

/-- `do_request` posts again after each response that tells it to. -/
theorem exec_doRequest_posts (payload : String) (depth : ℕ) (calls : ℕ → SessionPost)
    (w : Session) :
    (exec (doRequest payload depth calls) w).2 =
      { w with posts := w.posts ++ postsOf payload depth calls } := by
  induction depth generalizing calls w with
  | zero => simp [doRequest, postsOf, Retry.seen]
  | succ depth ih =>
    rcases exec_doRequest_cases payload depth calls w with
      ⟨response, -, hfinal, hexec⟩ | ⟨hagain, hexec⟩ | ⟨hnot, -, e, hexec⟩
    · rw [hexec, postsOf_of_not hfinal.not_again]
      rfl
    · rw [hexec, postsOf_of_again hagain]
      have hrest := ih (fun i => calls (i + 1)) (w.posted payload (calls 0))
      refine hrest.trans ?_
      simp [Session.posted]
    · rw [hexec, postsOf_of_not hnot]
      rfl

/-- What `do_request` returns is the response of its last call, and it returns when that is a
final one. -/
theorem exec_doRequest_result (payload : String) (depth : ℕ) (calls : ℕ → SessionPost)
    (w : Session) :
    match (exec (doRequest payload depth calls) w).1 with
    | .ok response => Retry.Reaches again Final depth calls ∧
        ∃ call, (Retry.seen again depth calls).getLast? = some call ∧ call.result = .ok response
    | .error _ => ¬ Retry.Reaches again Final depth calls := by
  induction depth generalizing calls w with
  | zero => exact Retry.not_reaches_zero
  | succ depth ih =>
    rw [Retry.reaches_succ_iff]
    rcases exec_doRequest_cases payload depth calls w with
      ⟨response, hresult, hfinal, hexec⟩ | ⟨hagain, hexec⟩ | ⟨hnot, hnotFinal, e, hexec⟩
    · rw [hexec]
      refine ⟨.inl hfinal, calls 0, ?_, hresult⟩
      rw [Retry.seen_of_not hfinal.not_again]
      rfl
    · rw [hexec, Retry.seen_succ hagain]
      have hrest := ih (fun i => calls (i + 1)) (w.posted payload (calls 0))
      cases hrun : (exec (doRequest payload depth fun i => calls (i + 1))
        (w.posted payload (calls 0))).1 with
      | error e =>
        rw [hrun] at hrest
        have hnotFinal : ¬ Final (calls 0) := fun hfinal => hfinal.not_again hagain
        simpa [hnotFinal] using fun _ => hrest
      | ok response =>
        rw [hrun] at hrest
        obtain ⟨hreaches, call, hlast, hresult⟩ := hrest
        refine ⟨.inr ⟨hagain, hreaches⟩, call, ?_, hresult⟩
        rw [List.getLast?_cons, hlast]
        rfl
    · rw [hexec]
      rintro (hfinal | ⟨hagain, -⟩)
      · exact hnotFinal hfinal
      · exact hnot hagain

def runsOf (depth : ℕ) : (ℕ → ℕ → SessionPost) → List String → List (List Post)
  | _, [] => []
  | calls, payload :: payloads =>
    postsOf payload depth (calls 0) :: runsOf depth (fun p => calls (p + 1)) payloads

/-- The first `k` payloads got a final response: one response is kept for each, the last of its
requests, and the next payload is the last for which there are requests. -/
structure Recorded (depth : ℕ) (calls : ℕ → ℕ → SessionPost) (payloads : List String)
    (w w' : Session) (result : Except FcmException Unit) (k : ℕ) : Prop where
  le_length : k ≤ payloads.length
  posts : w'.posts = w.posts ++ ((runsOf depth calls payloads).take (k + 1)).flatten
  responses : w'.sendRequestResponses.map some = w.sendRequestResponses.map some ++
    ((runsOf depth calls payloads).take k).map fun run => run.getLast?.bind (·.response)
  returns : result = .ok () ↔ k = payloads.length
  final : ∀ p < k, Retry.Reaches again Final depth (calls p)
  stuck : k < payloads.length → ¬ Retry.Reaches again Final depth (calls k)

theorem getLast?_postsOf {call : SessionPost} {response : FcmHTTPResponse}
    (h : (Retry.seen again depth calls).getLast? = some call)
    (hresult : call.result = .ok response) :
    (postsOf payload depth calls).getLast?.bind (·.response) = some response := by
  have hlast : (postsOfCall payload call).getLast? = some ⟨payload, some response⟩ := by
    rw [postsOfCall, List.getLast?_map, call.last_eq response hresult]
    rfl
  obtain ⟨before, hbefore⟩ := List.getLast?_eq_some_iff.mp h
  rw [postsOf, hbefore, List.flatMap_append, List.flatMap_singleton, List.getLast?_append, hlast]
  rfl

theorem exec_sendPayloads (depth : ℕ) (calls : ℕ → ℕ → SessionPost)
    (payloads : List String) (w : Session) :
    ∃ k, Recorded depth calls payloads w (exec (sendPayloads depth calls payloads) w).2
      (exec (sendPayloads depth calls payloads) w).1 k := by
  induction payloads generalizing calls w with
  | nil =>
    refine ⟨0, le_rfl, ?_, ?_, ?_, ?_, ?_⟩
    · simp [sendPayloads, runsOf]
    · simp [sendPayloads, runsOf]
    · simp [sendPayloads]
    · simp
    · simp
  | cons payload payloads ih =>
    have hposts := exec_doRequest_posts payload depth (calls 0) w
    have hresult := exec_doRequest_result payload depth (calls 0) w
    rw [sendPayloads, exec_bind]
    cases hrun : exec (doRequest payload depth (calls 0)) w with
    | mk result w₁ =>
      rw [hrun] at hposts hresult
      have hw : w₁ = { w with posts := w.posts ++ postsOf payload depth (calls 0) } := hposts
      cases result with
      | error e =>
        refine ⟨0, Nat.zero_le _, ?_, ?_, ?_, ?_, ?_⟩
        · simp [runsOf, hw]
        · simp [hw]
        · simp
        · simp
        · exact fun _ => hresult
      | ok response =>
        obtain ⟨hreaches, call, hlast, hcall⟩ := hresult
        simp only [exec_bind, exec_modify]
        obtain ⟨k, hk⟩ := ih (fun p => calls (p + 1))
          { w₁ with sendRequestResponses := w₁.sendRequestResponses ++ [response] }
        refine ⟨k + 1, ?_, ?_, ?_, ?_, ?_, ?_⟩
        · exact Nat.succ_le_succ hk.le_length
        · rw [hk.posts, hw]
          simp [runsOf]
        · rw [hk.responses, hw]
          simp [runsOf, getLast?_postsOf hlast hcall]
        · rw [hk.returns]
          simp
        · intro p hp
          cases p with
          | zero => exact hreaches
          | succ p => exact hk.final p (by omega)
        · intro hlt
          exact hk.stuck (by simpa using hlt)

end Spec

/-- The requests that `x` makes. -/
def newPosts {α : Type} (x : ClientM α) (w : Session) : List Post :=
  (exec x w).2.posts.drop w.posts.length

/-- The request got a response by which it was not accepted. -/
def Post.Refused (post : Post) : Prop := ∃ response, post.response = some response ∧
  response.statusCode ≠ 200

/-- A request is followed by another only if it was not accepted. -/
def OnlyAfterFailures (posts : List Post) : Prop := posts.IsChain fun post _ => post.Refused

/-- Each request that the session sends again got a response. -/
def Answered (call : SessionPost) : Prop := none ∉ call.answers.dropLast

theorem newPosts_doRequest (payload : String) (depth : ℕ) (calls : ℕ → SessionPost)
    (w : Session) :
    newPosts (doRequest payload depth calls) w = postsOf payload depth calls := by
  simp [newPosts, exec_doRequest_posts]

theorem notMem_resentStatuses : 200 ∉ resentStatuses := by decide

/-- The session itself sends again after a refusal, if there is a response at all. -/
theorem onlyAfterFailures_postsOfCall (payload : String) (call : SessionPost) :
    OnlyAfterFailures (postsOfCall payload call) ↔ Answered call := by
  rw [OnlyAfterFailures, postsOfCall, List.isChain_map, Retry.isChain_fst_iff]
  constructor
  · intro h hnone
    obtain ⟨response, hresponse, -⟩ := h none hnone
    cases hresponse
  · intro h answer hanswer
    cases answer with
    | none => exact absurd hanswer h
    | some response =>
      refine ⟨response, rfl, ?_⟩
      rintro hstatus
      exact notMem_resentStatuses (hstatus ▸ call.status_mem response hanswer)

theorem answers_ne_nil_of_again {call : SessionPost} (h : again call) : call.answers ≠ [] := by
  intro hnil
  have hasks := again_iff.mp h
  rw [asksAgain] at hasks
  obtain ⟨response, hresult, -⟩ := Except.exists_of_bind_eq_ok hasks
  have hlast := call.last_eq response hresult
  rw [hnil] at hlast
  cases hlast

/-- Whether a push is posted again depends on the header only. -/
theorem onlyAfterFailures_iff (payload : String) (depth : ℕ) (calls : ℕ → SessionPost)
    (w : Session) :
    OnlyAfterFailures (newPosts (doRequest payload depth calls) w) ↔
      ∀ i < depth, (∀ j < i, asksAgain (calls j) = .ok true) → Answered (calls i) ∧
        (i + 1 < depth → asksAgain (calls i) = .ok true → (calls (i + 1)).answers ≠ [] →
          ∀ response, (calls i).result = .ok response → response.statusCode ≠ 200) := by
  have hne : ∀ call, again call → postsOfCall payload call ≠ [] := fun call h hnil =>
    answers_ne_nil_of_again h (List.map_eq_nil_iff.mp hnil)
  rw [newPosts_doRequest, OnlyAfterFailures, postsOf, Retry.isChain_flatMap_seen_iff hne]
  simp only [again_iff]
  refine forall_congr' fun i => imp_congr_right fun _ => imp_congr_right fun _ => ?_
  refine and_congr (onlyAfterFailures_postsOfCall payload (calls i)) ?_
  refine imp_congr_right fun _ => imp_congr_right fun hagain => ?_
  refine imp_congr (not_congr List.map_eq_nil_iff) ?_
  obtain ⟨response, hresult, -⟩ := Except.exists_of_bind_eq_ok hagain
  rw [postsOfCall, List.getLast?_map, (calls i).last_eq response hresult, hresult]
  simp [Post.Refused]

theorem exec_sendRequest (depth : ℕ) (calls : ℕ → ℕ → SessionPost)
    (payloads : List String) (w : Session) :
    ∃ k, Recorded depth calls payloads { w with sendRequestResponses := [] }
      (exec (sendRequest depth calls payloads) w).2
      (exec (sendRequest depth calls payloads) w).1 k :=
  exec_sendPayloads depth calls payloads { w with sendRequestResponses := [] }

/-- No accepted push is sent again when no 200 that `session.post` returns has the header, and the
session sends none again that got no response; and the responses that are kept are the last ones in
any case. -/
theorem resends_iff (payload : String) (depth : ℕ) (calls : ℕ → SessionPost)
    (payloads : List String) (callsOf : ℕ → ℕ → SessionPost) (w : Session) :
    (OnlyAfterFailures (newPosts (doRequest payload depth calls) w) ↔
      ∀ i < depth, (∀ j < i, asksAgain (calls j) = .ok true) → Answered (calls i) ∧
        (i + 1 < depth → asksAgain (calls i) = .ok true → (calls (i + 1)).answers ≠ [] →
          ∀ response, (calls i).result = .ok response → response.statusCode ≠ 200)) ∧
    ∃ k, Recorded depth callsOf payloads { w with sendRequestResponses := [] }
      (exec (sendRequest depth callsOf payloads) w).2
      (exec (sendRequest depth callsOf payloads) w).1 k :=
  ⟨onlyAfterFailures_iff payload depth calls w, exec_sendRequest depth callsOf payloads w⟩

def accepting (headers : List (String × String)) : FcmHTTPResponse where
  statusCode := 200
  headers := headers
  text := "\x7b\"name\": \"projects/wazo/messages/1\"\x7d"
  json := some (.obj [("name", .str "projects/wazo/messages/1")])

/-- A push that is accepted twice. -/
theorem accepted_twice :
    (newPosts (doRequest "push" 1000
      fun i => .single (accepting (if i = 0 then [("retry-after", "1")] else []))) ⟨[], []⟩).map
        (fun post => (post.payload, post.response.map (·.statusCode))) =
          [("push", some 200), ("push", some 200)] ∧
      ¬ OnlyAfterFailures (newPosts (doRequest "push" 1000
        fun i => .single (accepting (if i = 0 then [("retry-after", "1")] else []))) ⟨[], []⟩) := by
  refine ⟨rfl, fun h => ?_⟩
  have hfailed := ((onlyAfterFailures_iff _ _ _ _).mp h 0 (by omega) nofun).2 (by omega) rfl nofun
  exact hfailed _ rfl rfl

end BaseAPI

/-- What the client gives of the responses it keeps. -/
structure FcmResponseDict where
  multicastIds : List Json := []
  success : ℤ := 0
  failure : ℤ := 0
  canonicalIds : ℤ := 0
  results : List Json := []
  topicMessageId : Json := .null

namespace BaseAPI

/-- The text of the response is empty, if its header can be read. -/
def isEmptyResponse (response : FcmHTTPResponse) : Except FcmException Bool :=
  match response.headers.lookup "content-length" with
  | none => .ok false
  | some value => (pyIntOf value).map (· ≤ 0)

def responseJson (response : FcmHTTPResponse) : Except FcmException Json :=
  match response.json with
  | some json => .ok json
  | none => .error ⟨jsonDecodeErrorClass, []⟩

def errorItem : Json → Except FcmException Json
  | .obj fields =>
    match fields.lookup "error" with
    | some error => .ok error
    | none => .error ⟨keyErrorClass, [.str "error"]⟩
  | _ => .error ⟨typeErrorClass, []⟩

def nameItem : Json → Except FcmException Json
  | .obj fields => .ok ((fields.lookup "name").getD .null)
  | _ => .error ⟨attributeErrorClass, []⟩

/-- The error of a server that is not available, or the text where there is none. -/
def serverError (response : FcmHTTPResponse) : Except FcmException Json :=
  let text : FcmException → Except FcmException Json := fun _ => .ok (.str response.text)
  let error := do
    let json ← responseJson response
    errorItem json
  tryExcept FcmException.cls keyErrorClass
    (tryExcept FcmException.cls jsonDecodeErrorClass error text) text

def parseResponse (parsed : FcmResponseDict) (response : FcmHTTPResponse) :
    Except FcmException FcmResponseDict :=
  match response.statusCode with
  | 200 => do
    let empty ← isEmptyResponse response
    if empty then
      throw ⟨fcmServerErrorClass, [.str "FCM server connection error, the response is empty"]⟩
    let json ← responseJson response
    let messageId ← nameItem json
    if messageId.truthy then
      pure { parsed with success := 1, topicMessageId := messageId, results := [json] }
    else pure { parsed with failure := 1 }
  | 401 =>
    .error ⟨authenticationErrorClass, [.str "There was an error authenticating the sender account"]⟩
  | 400 => .error ⟨invalidDataErrorClass, [.str response.text]⟩
  | 403 => do
    let json ← responseJson response
    let error ← errorItem json
    .error ⟨fcmSenderIdMismatchClass, [error]⟩
  | 404 => .error ⟨fcmNotRegisteredErrorClass, [.str "Token not registered"]⟩
  | _ => do
    let error ← serverError response
    .error ⟨fcmServerErrorClass, [error]⟩

def parseResponses (responses : List FcmHTTPResponse) : Except FcmException FcmResponseDict :=
  responses.foldlM parseResponse {}

theorem statusCode_of_parseResponse {parsed parsed' : FcmResponseDict}
    {response : FcmHTTPResponse} (h : parseResponse parsed response = .ok parsed') :
    response.statusCode = 200 := by
  unfold parseResponse at h
  split at h
  · assumption
  · cases h
  · cases h
  · obtain ⟨json, -, h⟩ := Except.exists_of_bind_eq_ok h
    obtain ⟨error, -, h⟩ := Except.exists_of_bind_eq_ok h
    cases h
  · cases h
  · obtain ⟨error, -, h⟩ := Except.exists_of_bind_eq_ok h
    cases h

end BaseAPI

end WazoWebhookd
