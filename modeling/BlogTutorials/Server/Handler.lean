import Mathlib.Data.List.Basic

/-!
# BlogTutorials — the request handler and its two counters

`example4_server_simulation.py` routes each `Request` to one of three handlers and keeps two
counters on the `RequestHandler`: `request_count`, raised on entry to `handle`, and
`error_count`, raised by the branches that answer with an error. The handler is a state machine
whose state is those counters and the (never written) `users` table; `handle` is its step and
`handleAll` (the loop of `run_simulation`) a run.

* **`handle_counts`** — the step lemma: one request raises `request_count` by one and
  `error_count` by one exactly when the response's status is `400` or more. Each of the
  handlers gets the same statement first (`handleApi_counts`, `handleAdmin_counts`,
  `handleStatic_counts`); it is proved from their branches.
* **`handleAll_counts`** — the run lemma, by induction on the request list: after any requests,
  `request_count` is their number and `error_count` the number of error responses.

Printing and `Request.timestamp` affect no returned value and are left out.
-/

namespace BlogTutorials.ServerSimulation

/-- `Request(method, path, user_id=None)`. -/
structure Request where
  method : String
  path : String
  userId : Option String
  deriving Repr, DecidableEq

/-- `Response(status, body)`. -/
structure Response where
  status : Nat
  body : String
  deriving Repr, DecidableEq

/-- The state of a `RequestHandler`. -/
structure RequestHandler where
  requestCount : Nat
  errorCount : Nat
  users : List (String × String)
  deriving Repr, DecidableEq

/-- One character of `repr(s)` once its quote is chosen: the quote and the backslash escaped,
`\t`, `\n` and `\r` by name, and the other characters the Unicode database does not call
printable as `\xhh` up to `U+00FF`; every other character as it is. Python also escapes the
unprintable characters above `U+00FF` (as `\uhhhh` or `\Uhhhhhhhh`), which this keeps. -/
def reprChar (quote c : Char) : String :=
  if c = quote ∨ c = '\\' then "\\" ++ c.toString
  else if c = '\t' then "\\t"
  else if c = '\n' then "\\n"
  else if c = '\r' then "\\r"
  else if c.toNat < 0x20 ∨ (0x7f ≤ c.toNat ∧ c.toNat ≤ 0xa0) ∨ c.toNat = 0xad then
    "\\x" ++ (Nat.digitChar (c.toNat / 16)).toString ++ (Nat.digitChar (c.toNat % 16)).toString
  else c.toString

/-- `repr(s)` for a `str`: in single quotes, or in double quotes when `s` holds a single quote
and no double quote. -/
def strRepr (s : String) : String :=
  let quote := if '\'' ∈ s.data ∧ '"' ∉ s.data then '"' else '\''
  quote.toString ++ String.join (s.data.map (reprChar quote)) ++ quote.toString

example : strRepr "alice" = "'alice'" ∧ strRepr "it's" = "\"it's\"" ∧
    strRepr "a'\"\\\n\x7f" = "'a\\'\"\\\\\\n\\x7f'" := by decide

namespace RequestHandler

/-- `RequestHandler()`. -/
def init : RequestHandler :=
  ⟨0, 0, [("alice", "admin"), ("bob", "user"), ("charlie", "user")]⟩

/-- `self.error_count += 1`. -/
def addError (handler : RequestHandler) : RequestHandler :=
  ⟨handler.requestCount, handler.errorCount + 1, handler.users⟩

/-- `str(list(self.users.keys()))`: each key's `repr`, between brackets. -/
def usersKeysRepr (handler : RequestHandler) : String :=
  "[" ++ ", ".intercalate (handler.users.map fun (key, _) => strRepr key) ++ "]"

/-- `handle_api`. -/
def handleApi (handler : RequestHandler) (request : Request) : Response × RequestHandler :=
  if request.path = "/api/users" then (⟨200, handler.usersKeysRepr⟩, handler)
  else if request.path.startsWith "/api/user/" then
    let userId := (request.path.splitOn "/").getLastD ""
    match handler.users.lookup userId with
    | some role => (⟨200, "User: " ++ userId ++ ", Role: " ++ role⟩, handler)
    | none => (⟨404, "User not found"⟩, handler.addError)
  else (⟨404, "API endpoint not found"⟩, handler.addError)

/-- `request.user_id and self.users.get(request.user_id) == "admin"`: an empty `user_id` is
falsy in Python. -/
def isAdmin (handler : RequestHandler) (userId : Option String) : Bool :=
  match userId with
  | some userId => userId ≠ "" && handler.users.lookup userId = some "admin"
  | none => false

/-- `handle_admin`. -/
def handleAdmin (handler : RequestHandler) (request : Request) : Response × RequestHandler :=
  if handler.isAdmin request.userId then (⟨200, "Admin panel access granted"⟩, handler)
  else (⟨401, "Unauthorized"⟩, handler.addError)

/-- `handle_static`. -/
def handleStatic (handler : RequestHandler) (request : Request) : Response × RequestHandler :=
  (⟨200, "Static content for " ++ request.path⟩, handler)

/-- `handle`: count the request, then route it on the prefix of its path. -/
def handle (handler : RequestHandler) (request : Request) : Response × RequestHandler :=
  let handler : RequestHandler := ⟨handler.requestCount + 1, handler.errorCount, handler.users⟩
  if request.path.startsWith "/api/" then handler.handleApi request
  else if request.path.startsWith "/admin/" then handler.handleAdmin request
  else handler.handleStatic request

end RequestHandler

open RequestHandler

/-- The loop of `run_simulation`: handle each request in turn and collect the responses. -/
def handleAll (handler : RequestHandler) : List Request → List Response × RequestHandler
  | [] => ([], handler)
  | request :: requests =>
    let step := handler.handle request
    let rest := handleAll step.2 requests
    (step.1 :: rest.1, rest.2)

/-- `generate_test_requests()`. -/
def generateTestRequests : List Request :=
  [⟨"GET", "/index.html", none⟩, ⟨"GET", "/api/users", none⟩, ⟨"GET", "/api/user/alice", none⟩,
    ⟨"GET", "/api/user/eve", none⟩, ⟨"GET", "/admin/dashboard", some "bob"⟩,
    ⟨"GET", "/admin/dashboard", some "alice"⟩, ⟨"POST", "/api/submit", none⟩,
    ⟨"GET", "/style.css", none⟩, ⟨"GET", "/api/user/charlie", none⟩,
    ⟨"GET", "/admin/settings", none⟩]

/-! ## §1 — one request -/

/-- What a handler may do to the state: count an error exactly when it answers `400` or more,
and touch nothing else. -/
def CountsErrors (handler : RequestHandler) (result : Response × RequestHandler) : Prop :=
  result.2 = if 400 ≤ result.1.status then handler.addError else handler

theorem handleApi_counts (handler : RequestHandler) (request : Request) :
    CountsErrors handler (handler.handleApi request) := by
  unfold handleApi
  split_ifs
  · simp [CountsErrors]
  · generalize (request.path.splitOn "/").getLastD "" = userId
    cases h : handler.users.lookup userId <;> simp [CountsErrors, h]
  · simp [CountsErrors]

theorem handleAdmin_counts (handler : RequestHandler) (request : Request) :
    CountsErrors handler (handler.handleAdmin request) := by
  unfold handleAdmin
  split_ifs <;> simp [CountsErrors]

theorem handleStatic_counts (handler : RequestHandler) (request : Request) :
    CountsErrors handler (handler.handleStatic request) := by
  simp [handleStatic, CountsErrors]

/-- **The step.** `handle` counts the request, then counts an error exactly when its response
has status `400` or more. -/
theorem handle_counts (handler : RequestHandler) (request : Request) :
    CountsErrors ⟨handler.requestCount + 1, handler.errorCount, handler.users⟩
      (handler.handle request) := by
  unfold handle
  split_ifs
  · exact handleApi_counts _ _
  · exact handleAdmin_counts _ _
  · exact handleStatic_counts _ _

theorem handle_requestCount (handler : RequestHandler) (request : Request) :
    (handler.handle request).2.requestCount = handler.requestCount + 1 := by
  have h := handle_counts handler request
  unfold CountsErrors at h
  split_ifs at h <;> simp [h, addError]

theorem handle_errorCount (handler : RequestHandler) (request : Request) :
    (handler.handle request).2.errorCount =
      handler.errorCount + if 400 ≤ (handler.handle request).1.status then 1 else 0 := by
  have h := handle_counts handler request
  unfold CountsErrors at h
  split_ifs at h ⊢ <;> simp [h, addError]

/-! ## §2 — a run -/

/-- **Both counters are exact over any run.** After `handleAll` from `handler`, `request_count`
has grown by the number of requests and `error_count` by the number of responses with status
`400` or more, so from `RequestHandler()` the errors never outnumber the requests. -/
theorem handleAll_counts (handler : RequestHandler) (requests : List Request) :
    (handleAll handler requests).2.requestCount = handler.requestCount + requests.length ∧
      (handleAll handler requests).2.errorCount =
        handler.errorCount + ((handleAll handler requests).1.filter (400 ≤ ·.status)).length := by
  induction requests generalizing handler with
  | nil => simp [handleAll]
  | cons request requests ih =>
    obtain ⟨ih₁, ih₂⟩ := ih (handler.handle request).2
    have h₁ := handle_requestCount handler request
    have h₂ := handle_errorCount handler request
    simp only [handleAll, List.length_cons, List.filter_cons, decide_eq_true_eq]
    constructor
    · omega
    · split_ifs at h₂ ⊢ <;> simp only [List.length_cons] at * <;> omega

theorem handleAll_length (handler : RequestHandler) (requests : List Request) :
    (handleAll handler requests).1.length = requests.length := by
  induction requests generalizing handler with
  | nil => rfl
  | cons request requests ih => simp [handleAll, ih]

/-- **`request_count` and `error_count` are exact from `RequestHandler()`**: after any sequence
of requests, `request_count` is the number of `handle` calls and `error_count` the number of
responses with status `400` or more, hence never more than `request_count`. -/
theorem handleAll_init_counts (requests : List Request) :
    (handleAll init requests).2.requestCount = requests.length ∧
      (handleAll init requests).2.errorCount =
        ((handleAll init requests).1.filter (400 ≤ ·.status)).length ∧
      (handleAll init requests).2.errorCount ≤ (handleAll init requests).2.requestCount := by
  obtain ⟨h₁, h₂⟩ := handleAll_counts init requests
  rw [show init.requestCount = 0 from rfl, Nat.zero_add] at h₁
  rw [show init.errorCount = 0 from rfl, Nat.zero_add] at h₂
  refine ⟨h₁, h₂, ?_⟩
  rw [h₁, h₂, ← handleAll_length init requests]
  exact List.length_filter_le _ _

/-! ## §3 — what a response depends on

A response reads the request and `users`, never the two counters, and no handler writes
`users`. So a run answers each request as the handler it started from would answer that request
alone (`handleAll_responses`), and only the admin branch can grant admin access
(`handleAll_accessGranted`). -/

/-- `handle` never writes `users`. -/
theorem handle_users (handler : RequestHandler) (request : Request) :
    (handler.handle request).2.users = handler.users := by
  have h := handle_counts handler request
  unfold CountsErrors at h
  split_ifs at h <;> simp [h, addError]

/-- The response to a request is fixed by the request and `users`. -/
theorem handle_response_eq {h₁ h₂ : RequestHandler} (hu : h₁.users = h₂.users)
    (request : Request) : (h₁.handle request).1 = (h₂.handle request).1 := by
  simp only [handle, handleApi, handleAdmin, handleStatic, isAdmin, usersKeysRepr, hu]
  split_ifs <;> try rfl
  split <;> rfl

theorem handleAll_users (handler : RequestHandler) (requests : List Request) :
    (handleAll handler requests).2.users = handler.users := by
  induction requests generalizing handler with
  | nil => rfl
  | cons request requests ih => exact (ih _).trans (handle_users handler request)

/-- The run lemma: each response of a run is the one the starting handler gives that request. -/
theorem handleAll_eq_map (handler : RequestHandler) (requests : List Request) :
    (handleAll handler requests).1 = requests.map (fun request => (handler.handle request).1) := by
  induction requests generalizing handler with
  | nil => rfl
  | cons request requests ih =>
    rw [handleAll, ih, List.map_cons]
    exact congrArg _ (List.map_congr_left fun r _ => handle_response_eq (handle_users _ _) r)

/-- **No response depends on the requests before it.** Over any run, each response is the one
the starting handler gives that request alone, and `users` is never written. -/
theorem handleAll_responses (handler : RequestHandler) (requests : List Request) :
    (handleAll handler requests).1 = requests.map (fun request => (handler.handle request).1) ∧
      (handleAll handler requests).2.users = handler.users :=
  ⟨handleAll_eq_map handler requests, handleAll_users handler requests⟩

theorem ne_of_data_head? {s t : String} (h : s.data.head? ≠ t.data.head?) : s ≠ t :=
  fun e => h (e ▸ rfl)

/-- `handle` answers `Admin panel access granted` exactly to a request routed to `handle_admin`
whose `user_id` names an admin: every other answer has another status or a body that starts
with another letter. -/
theorem handle_accessGranted (handler : RequestHandler) (request : Request) :
    decide ((handler.handle request).1 = ⟨200, "Admin panel access granted"⟩) =
      (!request.path.startsWith "/api/" && request.path.startsWith "/admin/" &&
        handler.isAdmin request.userId) := by
  have hbody : ∀ {s : String}, s.data.head? ≠ some 'A' →
      (⟨200, s⟩ : Response) ≠ ⟨200, "Admin panel access granted"⟩ := fun hs he =>
    ne_of_data_head? hs (Response.mk.inj he).2
  simp only [handle]
  split_ifs with hapi hadmin
  · -- `handle_api`: a 404, or a 200 whose body starts with `[` or `U`
    simp only [hapi, Bool.not_true, Bool.false_and, decide_eq_false_iff_not, handleApi]
    split_ifs
    · exact hbody (by simp [usersKeysRepr, String.append])
    · split
      · exact hbody (by simp [String.append])
      · simp
    · simp
  · -- `handle_admin`: the grant, exactly for an admin
    simp only [hapi, hadmin, handleAdmin]
    have hadm : (⟨handler.requestCount + 1, handler.errorCount, handler.users⟩ :
        RequestHandler).isAdmin request.userId = handler.isAdmin request.userId := rfl
    split_ifs with h <;> simp [← hadm, h]
  · -- `handle_static`: a 200 whose body starts with `S`
    simp only [hapi, hadmin, handleStatic]
    simpa using hbody (by simp [String.append])

/-- **Only admins get into the admin panel.** In any run, the responses that grant admin access
are exactly the answers to requests routed to `handle_admin` (a path under `/admin/`, not under
`/api/`) whose `user_id` is a non-empty name with the role `admin` in `users`; no other route
ever gives that response. -/
theorem handleAll_accessGranted (handler : RequestHandler) (requests : List Request) :
    (handleAll handler requests).1.map (fun response =>
        decide (response = ⟨200, "Admin panel access granted"⟩)) =
      requests.map fun request => !request.path.startsWith "/api/" &&
        request.path.startsWith "/admin/" && handler.isAdmin request.userId := by
  rw [handleAll_eq_map, List.map_map]
  refine List.map_congr_left fun request _ => ?_
  rw [Function.comp_apply]
  exact handle_accessGranted handler request

end BlogTutorials.ServerSimulation
