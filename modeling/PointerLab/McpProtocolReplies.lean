import PointerLab.McpProtocolText

set_option autoImplicit false

/- Who is answered: which entries of a request get a response of `Protocol::handle`, and
which methods go their own way. -/
namespace PointerLab.McpProtocol

open ByteText Runs

namespace Protocol

variable {World : Type} {p : Protocol World}

/-- The methods whose response is made without a look at the notification. -/
def answersAlways (method : Bytes) : Bool :=
  method == ascii "initialize" || method == ascii "tools/list" ||
    method == ascii "resources/list" || method == ascii "prompts/list"

/-- The methods that are taken for notifications whether they have an id or not. -/
def answersNever (method : Bytes) : Bool :=
  method == ascii "notifications/initialized" || method == ascii "notifications/cancelled"

/-- The id that a response carries. -/
def answeredId : Json → Json
  | .object fields => idOf fields
  | _ => .null

@[simp] theorem answeredId_errorResponse (id : Json) (code : Int) (message : Bytes) :
    answeredId (errorResponse id code message) = id := by
  simp +decide [answeredId, errorResponse, idOf, Json.field]

@[simp] theorem answeredId_okResponse (id result : Json) :
    answeredId (okResponse id result) = id := by
  simp +decide [answeredId, okResponse, idOf, Json.field]

/-- A response that a method makes: to its id, unless it is left out. -/
def AnswersTo (id : Json) (leftOut : Bool) (response : Json) : Prop :=
  response.isNull = leftOut ∧ (response.isNull = false → answeredId response = id)

theorem answersTo_ok (id result : Json) : AnswersTo id false (okResponse id result) :=
  ⟨rfl, fun _ => answeredId_okResponse id result⟩

theorem answersTo_unless {id response : Json} (notification : Bool)
    (answers : AnswersTo id false response) :
    AnswersTo id notification (unlessNotification notification response) := by
  cases notification with
  | false => exact answers
  | true =>
      refine ⟨rfl, ?_⟩
      intro present
      contradiction

theorem answersTo_error (id : Json) (notification : Bool) (code : Int) (message : Bytes) :
    AnswersTo id notification (unlessNotification notification (errorResponse id code message)) :=
  answersTo_unless notification ⟨rfl, fun _ => answeredId_errorResponse id code message⟩

/-- When a method is answered, and to whom. -/
theorem perform_answers (id params : Json) (method : Bytes) (notification : Bool)
    (world : World) :
    AnswersTo id (answersNever method || (notification && !answersAlways method))
      (caught id notification (p.perform id notification method params world).2) := by
  unfold perform
  split
  · rename_i same
    rw [same, Bool.and_comm]
    exact answersTo_ok _ _
  · rename_i notInitialize
    split
    · rename_i either
      have never : answersNever method = true := by
        simpa [answersNever] using either
      rw [never, Bool.true_or]
      refine ⟨rfl, ?_⟩
      intro present
      contradiction
    · rename_i neither
      have never : answersNever method = false := by
        rw [not_or] at neither
        simp [answersNever, neither.1, neither.2]
      rw [never, Bool.false_or]
      split
      · rename_i same
        have always : answersAlways method = false := by rw [same]; decide
        rw [always, Bool.not_false, Bool.and_true]
        exact answersTo_unless notification (answersTo_ok _ _)
      · split
        · rename_i same
          rw [same, Bool.and_comm]
          exact answersTo_ok _ _
        · rename_i notList
          split
          · rename_i same
            have always : answersAlways method = false := by rw [same]; decide
            rw [always, Bool.not_false, Bool.and_true]
            simp only []
            cases (p.callTool params world).2 with
            | ok result => exact answersTo_unless notification (answersTo_ok _ _)
            | error what => exact answersTo_error _ _ _ _
          · split
            · rename_i same
              rw [same, Bool.and_comm]
              exact answersTo_ok _ _
            · rename_i notResources
              split
              · rename_i same
                rw [same, Bool.and_comm]
                exact answersTo_ok _ _
              · rename_i notPrompts
                have always : answersAlways method = false := by
                  simp [answersAlways, notInitialize, notList, notResources, notPrompts]
                rw [always, Bool.not_false, Bool.and_true]
                exact answersTo_error _ _ _ _

/-- An object that asks for a response, by an id that is not null. -/
def asks : Json → Bool
  | .object fields => !(idOf fields).isNull
  | _ => false

def isObject : Json → Bool
  | .object _ => true
  | _ => false

/-- The id of an entry, null for a notification. -/
def entryId : Json → Json
  | .object fields => idOf fields
  | _ => .null

/-- The method of an object, if it names one. -/
def methodOf : Json → Option Bytes
  | .object fields =>
      match Json.field (ascii "method") fields with
      | some (.string method) => some method
      | _ => none
  | _ => none

/-- A notification that gets a response all the same. -/
def answeredAnyway (entry : Json) : Bool :=
  isObject entry && !asks entry && (methodOf entry).any answersAlways

/-- A request that gets none. -/
def leftUnanswered (entry : Json) : Bool :=
  asks entry && (methodOf entry).any answersNever

theorem answersAlways_of_never {method : Bytes} (never : answersNever method = true) :
    answersAlways method = false := by
  simp only [answersNever, Bool.or_eq_true, beq_iff_eq] at never
  rcases never with same | same <;> rw [same] <;> decide

theorem dispatch_answers (fields : List (Bytes × Json)) (world : World) :
    AnswersTo (idOf fields)
      (leftUnanswered (.object fields) ||
        (!asks (.object fields) && !answeredAnyway (.object fields)))
      (p.dispatch (.object fields) world).2 := by
  cases named : Json.field (ascii "method") fields with
  | none =>
      simp only [dispatch, named, leftUnanswered, answeredAnyway, asks, methodOf]
      simpa using answersTo_error (idOf fields) (idOf fields).isNull _ _
  | some value =>
      cases value with
      | string method =>
          have performed := perform_answers (p := p) (idOf fields) (paramsOf fields) method
            (idOf fields).isNull world
          have apart := @answersAlways_of_never method
          have flags : (answersNever method || ((idOf fields).isNull && !answersAlways method)) =
              (leftUnanswered (.object fields) ||
                (!asks (.object fields) && !answeredAnyway (.object fields))) := by
            simp only [leftUnanswered, answeredAnyway, asks, isObject, methodOf, named]
            cases (idOf fields).isNull <;> cases never : answersNever method <;>
              simp_all
          rw [← flags]
          simpa only [dispatch, named] using performed
      | _ =>
          simp only [dispatch, named, leftUnanswered, answeredAnyway, asks, methodOf]
          simpa using answersTo_error (idOf fields) (idOf fields).isNull _ _

theorem dispatch_notObject {entry : Json} (other : isObject entry = false) (world : World) :
    (p.dispatch entry world).2 =
      errorResponse .null invalidRequest (ascii "A request must be a JSON object.") := by
  cases entry with
  | object fields => contradiction
  | _ => rfl

/-- The responses that the entries of a request ask for, in their order. -/
inductive Answers : List Json → List Json → Prop
  | nil : Answers [] []
  | request (entry response : Json) {entries responses : List Json} (asked : asks entry = true)
      (carries : answeredId response = entryId entry) (rest : Answers entries responses) :
      Answers (entry :: entries) (response :: responses)
  | invalid (entry : Json) {entries responses : List Json} (message : Bytes)
      (other : isObject entry = false) (rest : Answers entries responses) :
      Answers (entry :: entries) (errorResponse .null invalidRequest message :: responses)
  | notification (entry : Json) {entries responses : List Json} (object : isObject entry = true)
      (unasked : asks entry = false) (rest : Answers entries responses) :
      Answers (entry :: entries) responses

def anonymous (response : Json) : Bool := (answeredId response).isNull

theorem asks_isObject {entry : Json} (asked : asks entry = true) : isObject entry = true := by
  cases entry with
  | object fields => rfl
  | _ => contradiction

theorem asks_id {entry : Json} (asked : asks entry = true) : (entryId entry).isNull = false := by
  cases entry with
  | object fields => simpa [asks, entryId] using asked
  | _ => contradiction

/-- Counted, the responses asked for are the errors, without an id, and the requests. -/
theorem Answers.counts {entries responses : List Json} (answers : Answers entries responses) :
    responses.countP anonymous = entries.countP (fun entry => !isObject entry) ∧
      responses.length = entries.countP (fun entry => !isObject entry) + entries.countP asks := by
  induction answers with
  | nil => exact ⟨rfl, rfl⟩
  | request entry response asked carries rest ih =>
      have named : anonymous response = false := by rw [anonymous, carries, asks_id asked]
      obtain ⟨nameless, total⟩ := ih
      simp only [List.countP_cons, named, asks_isObject asked, asked, List.length_cons,
        Bool.not_true, Bool.false_eq_true, if_false, if_true]
      omega
  | invalid entry message other rest ih =>
      have unasked : asks entry = false := by
        by_contra asked
        rw [Bool.not_eq_false] at asked
        rw [asks_isObject asked] at other
        contradiction
      have nameless : anonymous (errorResponse .null invalidRequest message) = true := by
        rw [anonymous, answeredId_errorResponse]
        rfl
      obtain ⟨others, total⟩ := ih
      simp only [List.countP_cons, nameless, other, unasked, List.length_cons, Bool.not_false,
        Bool.false_eq_true, if_false, if_true]
      omega
  | notification entry object unasked rest ih =>
      simp only [List.countP_cons, object, unasked, ih]
      simp

/-- Which entry gets no response, and which one a response without an id. -/
theorem dispatch_response (entry : Json) (world : World) :
    (p.dispatch entry world).2.isNull =
        (leftUnanswered entry || (isObject entry && !asks entry && !answeredAnyway entry)) ∧
      ((p.dispatch entry world).2.isNull = false →
        answeredId (p.dispatch entry world).2 = entryId entry) := by
  cases object : isObject entry with
  | false =>
      have unasked : asks entry = false := by
        by_contra asked
        rw [Bool.not_eq_false] at asked
        rw [asks_isObject asked] at object
        contradiction
      rw [dispatch_notObject object]
      refine ⟨by simp [leftUnanswered, unasked], ?_⟩
      intro _
      cases entry with
      | object fields => contradiction
      | _ => exact answeredId_errorResponse _ _ _
  | true =>
      cases entry with
      | object fields =>
          obtain ⟨silent, carries⟩ := dispatch_answers (p := p) fields world
          refine ⟨?_, carries⟩
          rw [silent, Bool.true_and]
      | _ => contradiction

/-- An entry that gets a response gets a nameless one unless it asks for its own. -/
theorem anonymous_response {entry : Json} {world : World}
    (present : (p.dispatch entry world).2.isNull = false) :
    anonymous (p.dispatch entry world).2 = !asks entry := by
  rw [anonymous, (dispatch_response entry world).2 present]
  cases entry with
  | object fields => simp [entryId, asks]
  | _ => rfl

/-- Counted, the responses given are these, but for the entries that are answered against
the rule. -/
theorem dispatchEach_counts (entries : List Json) (world : World) :
    (p.dispatchEach entries world).2.countP anonymous =
        entries.countP (fun entry => !isObject entry) + entries.countP answeredAnyway ∧
      (p.dispatchEach entries world).2.length + entries.countP leftUnanswered =
        entries.countP (fun entry => !isObject entry) + entries.countP asks +
          entries.countP answeredAnyway := by
  induction entries generalizing world with
  | nil => exact ⟨rfl, rfl⟩
  | cons entry rest ih =>
      obtain ⟨nameless, total⟩ := ih (p.dispatch entry world).1
      have silent := (dispatch_response (p := p) entry world).1
      have named := @anonymous_response _ p entry world
      have object := @asks_isObject entry
      simp only [dispatchEach, List.countP_cons]
      cases asked : asks entry with
      | true =>
          have anyway : answeredAnyway entry = false := by simp [answeredAnyway, asked]
          rw [object asked, asked, anyway] at silent
          cases left : leftUnanswered entry with
          | true =>
              rw [left] at silent
              simp only [silent, object asked, anyway, Bool.true_or]
              simp only [if_true, Bool.not_true, Bool.false_eq_true, if_false]
              omega
          | false =>
              rw [left] at silent
              have present : (p.dispatch entry world).2.isNull = false := silent
              rw [asked] at named
              simp only [present, named present, object asked, anyway, List.countP_cons,
                List.length_cons, if_true, Bool.not_true, Bool.false_eq_true, if_false]
              omega
      | false =>
          have left : leftUnanswered entry = false := by simp [leftUnanswered, asked]
          rw [asked, left] at silent
          rw [asked] at named
          cases isObj : isObject entry with
          | false =>
              have anyway : answeredAnyway entry = false := by simp [answeredAnyway, isObj]
              rw [isObj] at silent
              have present : (p.dispatch entry world).2.isNull = false := silent
              simp only [present, named present, anyway, left, List.countP_cons,
                List.length_cons, if_true, Bool.not_false, Bool.false_eq_true, if_false]
              omega
          | true =>
              rw [isObj] at silent
              cases anyway : answeredAnyway entry with
              | true =>
                  rw [anyway] at silent
                  have present : (p.dispatch entry world).2.isNull = false := silent
                  simp only [present, named present, left, List.countP_cons,
                    List.length_cons, if_true, Bool.not_false, Bool.not_true,
                    Bool.false_eq_true, if_false]
                  omega
              | false =>
                  rw [anyway] at silent
                  have absent : (p.dispatch entry world).2.isNull = true := silent
                  simp only [absent, left, if_true, Bool.not_true, Bool.false_eq_true, if_false]
                  omega

/-- Without such entries the responses are the ones asked for. -/
theorem answers_dispatchEach {entries : List Json}
    (fine : ∀ entry ∈ entries, answeredAnyway entry = false ∧ leftUnanswered entry = false)
    (world : World) : Answers entries (p.dispatchEach entries world).2 := by
  induction entries generalizing world with
  | nil => exact .nil
  | cons entry rest ih =>
      have later := ih (fun other inRest => fine other (List.mem_cons_of_mem _ inRest))
        (p.dispatch entry world).1
      obtain ⟨anyway, left⟩ := fine entry List.mem_cons_self
      obtain ⟨silent, carries⟩ := dispatch_response (p := p) entry world
      rw [anyway, left] at silent
      simp only [dispatchEach]
      cases object : isObject entry with
      | false =>
          rw [dispatch_notObject object world]
          exact .invalid entry _ object later
      | true =>
          rw [object] at silent
          cases asked : asks entry with
          | true =>
              rw [asked] at silent
              have present : (p.dispatch entry world).2.isNull = false := silent
              rw [if_neg (by rw [present]; decide)]
              exact .request entry _ asked (carries present) later
          | false =>
              rw [asked] at silent
              have absent : (p.dispatch entry world).2.isNull = true := silent
              rw [if_pos absent]
              exact .notification entry object asked later

/-- The responses are the ones asked for exactly when no entry is answered against the
rule. -/
theorem answers_iff (entries : List Json) (world : World) :
    Answers entries (p.dispatchEach entries world).2 ↔
      ∀ entry ∈ entries, answeredAnyway entry = false ∧ leftUnanswered entry = false := by
  constructor
  · intro answers
    obtain ⟨nameless, total⟩ := answers.counts
    obtain ⟨namelessGiven, totalGiven⟩ := dispatchEach_counts (p := p) entries world
    have noneAnyway : entries.countP answeredAnyway = 0 := by omega
    have noneLeft : entries.countP leftUnanswered = 0 := by omega
    rw [List.countP_eq_zero] at noneAnyway noneLeft
    intro entry member
    exact ⟨Bool.not_eq_true _ ▸ noneAnyway entry member,
      Bool.not_eq_true _ ▸ noneLeft entry member⟩
  · exact fun fine => answers_dispatchEach fine world

/-- The form the responses are sent in: an array for a batch, nothing for none. -/
def shaped (request : Json) (responses : List Json) : Option Json :=
  match request with
  | .array _ => if responses.isEmpty then none else some (.array responses)
  | _ => responses.head?

theorem respond_eq {request : Json} (nonempty : entriesOf request ≠ []) (world : World) :
    (p.respond request world).2 =
      shaped request (p.dispatchEach (entriesOf request) world).2 := by
  cases request with
  | array items =>
      cases items with
      | nil => contradiction
      | cons item rest => rfl
  | _ =>
      simp only [respond, shaped, entriesOf, dispatchEach]
      split <;> rfl

theorem shaped_eq_none {request : Json} {responses : List Json} :
    shaped request responses = none ↔ responses = [] := by
  cases request with
  | array items => cases responses <;> simp [shaped]
  | _ => simp [shaped]

theorem dispatchEach_length (entries : List Json) (world : World) :
    (p.dispatchEach entries world).2.length ≤ entries.length := by
  induction entries generalizing world with
  | nil => exact le_refl _
  | cons entry rest ih =>
      have later := ih (p.dispatch entry world).1
      simp only [dispatchEach]
      split
      · exact Nat.le_succ_of_le later
      · exact Nat.succ_le_succ later

theorem Answers.length_le {entries responses : List Json} (answers : Answers entries responses) :
    responses.length ≤ entries.length := by
  induction answers with
  | nil => exact le_refl _
  | request entry response asked carries rest ih => exact Nat.succ_le_succ ih
  | invalid entry message other rest ih => exact Nat.succ_le_succ ih
  | notification entry object unasked rest ih => exact Nat.le_succ_of_le ih

/-- The form tells the responses apart. -/
theorem eq_of_shaped {request : Json} {responses others : List Json}
    (few : responses.length ≤ (entriesOf request).length)
    (otherFew : others.length ≤ (entriesOf request).length)
    (same : shaped request responses = shaped request others) : responses = others := by
  cases request with
  | array items => cases responses <;> cases others <;> simp_all [shaped]
  | _ =>
      simp only [entriesOf, List.length_singleton] at few otherFew
      simp only [shaped] at same
      cases responses <;> cases others <;> simp_all

/-- There is a reply, it has the responses that the entries ask for, and it is empty if
there are none. -/
def Replies (p : Protocol World) (body : Bytes) (request : Json) (world : World) : Prop :=
  ∃ reply responses, (p.handle body world).2 = .ok reply ∧
    Answers (entriesOf request) responses ∧
    (p.respond request world).2 = shaped request responses ∧ (reply = [] ↔ responses = [])

theorem handle_empty_iff {body reply : Bytes} {request : Json} {world : World}
    (parses : p.json.parse body = .ok request)
    (returns : (p.handle body world).2 = .ok reply) :
    reply = [] ↔ (p.respond request world).2 = none := by
  simp only [handle, parses] at returns
  cases responded : (p.respond request world).2 with
  | none =>
      rw [responded] at returns
      have empty : [] = reply := Except.ok.inj returns
      simp [← empty]
  | some response =>
      rw [responded] at returns
      simp [p.json.dump_ne_nil returns]

/-- The responses of a reply by the rules are the ones the protocol gives. -/
theorem answers_of_replies {body : Bytes} {request : Json} {world : World}
    (nonempty : entriesOf request ≠ []) (replies : Replies p body request world) :
    Answers (entriesOf request) (p.dispatchEach (entriesOf request) world).2 := by
  obtain ⟨reply, responses, returns, answers, same, _⟩ := replies
  have equal := eq_of_shaped (dispatchEach_length _ _) answers.length_le
    ((respond_eq nonempty world).symm.trans same)
  rw [equal]
  exact answers

/-- Every request, alone or in a batch, is answered by the rules of JSON-RPC exactly when no
entry names one of the methods that go their own way, and every tool speaks UTF-8. -/
theorem handle_answers_iff {World : Type} (p : Protocol World) (body : Bytes) (request : Json)
    (parses : p.json.parse body = .ok request) (nonempty : entriesOf request ≠ [])
    (world : World) :
    Replies p body request world ↔
      (∀ entry ∈ entriesOf request,
        answeredAnyway entry = false ∧ leftUnanswered entry = false) ∧
      Follows (entryStep p) (SaysUtf8 p) world (entriesOf request) := by
  have given := respond_eq (p := p) nonempty world
  rw [← answers_iff (p := p) (entriesOf request) world, ← returns_of_parsed parses world]
  constructor
  · intro replies
    have answers := answers_of_replies nonempty replies
    obtain ⟨reply, _, returns, _⟩ := replies
    exact ⟨answers, reply, returns⟩
  · rintro ⟨answers, reply, returns⟩
    refine ⟨reply, _, returns, answers, given, ?_⟩
    rw [handle_empty_iff parses returns, given, shaped_eq_none]

end Protocol

def bare (method : String) : Json := .object [(ascii "method", .string (ascii method))]

def withId (method : String) : Json :=
  .object [(ascii "id", .integer 1), (ascii "method", .string (ascii method))]

/-- A batch of a request, a notification and something else. -/
def batch : Json := .array [withId "ping", bare "notifications/initialized", .integer 5]

def batchBody : Bytes :=
  ascii "[\x7b\"id\":1,\"method\":\"ping\"\x7d,\x7b\"method\":\"notifications/initialized\"\x7d,5]"

theorem handle_answers_batch :
    Protocol.Replies (toolless (libraryOf batchBody batch (by decide) [])) batchBody batch () := by
  refine (Protocol.handle_answers_iff (toolless (libraryOf batchBody batch (by decide) []))
    batchBody batch (libraryOf_parse _ _ (by decide) _) (by decide) ()).mpr
    ⟨by decide, ?_, ?_, ?_, trivial⟩ <;>
  · intro name arguments called
    contradiction

def bareBody : Bytes := ascii "\x7b\"method\":\"initialize\"\x7d"

def withIdBody : Bytes :=
  ascii "\x7b\"id\":1,\"method\":\"notifications/cancelled\"\x7d"

/-- A method that is answered to nobody, and one that leaves its caller without an answer. -/
theorem handle_breaks_the_rules :
    ¬ Protocol.Replies
        (toolless (libraryOf bareBody (bare "initialize") (by decide) [])) bareBody
        (bare "initialize") () ∧
      ¬ Protocol.Replies
        (toolless (libraryOf withIdBody (withId "notifications/cancelled") (by decide) []))
        withIdBody (withId "notifications/cancelled") () := by
  have one : ∀ method, Protocol.entriesOf (bare method) ≠ [] := fun _ => List.cons_ne_nil _ _
  have other : ∀ method, Protocol.entriesOf (withId method) ≠ [] :=
    fun _ => List.cons_ne_nil _ _
  constructor
  · intro replies
    have answers := Protocol.answers_of_replies (one _) replies
    have fine := (Protocol.answers_iff _ _).mp answers _ List.mem_cons_self
    exact absurd fine.1 (by decide)
  · intro replies
    have answers := Protocol.answers_of_replies (other _) replies
    have fine := (Protocol.answers_iff _ _).mp answers _ List.mem_cons_self
    exact absurd fine.2 (by decide)

end PointerLab.McpProtocol
