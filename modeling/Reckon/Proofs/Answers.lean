import Reckon.Proofs.JsonGrammar

/-!
# Who gets an answer, and under which identifier

A line is answered unless it is a notification: an object with the right version, a method and no
identifier at all. There is one answer, with a result or with an error, and it carries the
identifier of the message wherever the message fails. This is said about the members as they stand
in the line, where a name may stand more than once: the last one counts.

* `handle_of_parse`: everything that a message can lead to.
* `answerId_object`: the identifier of an answer, by the members of the message.
* `notifies_iff`: the lines that are not answered, as requests and as texts.
-/

namespace Reckon.Server

variable {line : String} {message : Json}

/-! ## Messages -/

/-- The message is a request of version 2.0 without an identifier. -/
def Quiet (message : Json) : Prop :=
  ∃ request, Request.decode message = .ok request ∧ request.version = "2.0" ∧ request.id? = none

/-- The identifier that an answer to a message carries. -/
def answerId (message : Json) : Json :=
  match Request.decode message with
  | .ok request => request.id?.getD .null
  | .error _ => (message.member? "id").getD .null

theorem answerId_object (members : Entries Json) :
    answerId (.object members) = (Entries.lookup "id" members).getD .null := by
  unfold answerId
  split
  · next request h =>
    have hid := (Request.ofMembers_eq_ok.mp h).2.1
    rw [hid]
  · rfl

theorem quiet_iff : Quiet message ↔
    message.field? Request.fields "jsonrpc" = some (.string "2.0") ∧
      (∃ method, message.field? Request.fields "method" = some (.string method)) ∧
      message.field? Request.fields "id" = none := by
  constructor
  · rintro ⟨request, hdecode, hversion, hid⟩
    obtain ⟨-, hid', hmethod, -⟩ := Request.decode_eq_ok.mp hdecode
    exact ⟨Request.field?_version hdecode hversion, ⟨_, hmethod⟩, hid'.trans hid⟩
  · rintro ⟨hversion, ⟨method, hmethod⟩, hid⟩
    refine ⟨⟨"2.0", none, method, (message.field? Request.fields "params").getD .null⟩,
      Request.decode_eq_ok.mpr ⟨?_, hid, hmethod, rfl⟩, rfl, rfl⟩
    rw [hversion]

/-- A list of fields that has a method has an identifier in front of it. -/
theorem Quiet.exists_members (h : Quiet message) : ∃ members, message = .object members := by
  obtain ⟨-, ⟨method, hmethod⟩, hid⟩ := quiet_iff.mp h
  cases message with
  | object members => exact ⟨members, rfl⟩
  | array items =>
    have hposition : Request.fields.idxOf "method" = 2 := rfl
    have hposition' : Request.fields.idxOf "id" = 1 := rfl
    simp only [Json.field?, hposition, hposition'] at hmethod hid
    split at hid
    · next hlength =>
      rw [if_pos hlength] at hmethod
      have hlt : 2 < items.length := (List.getElem?_eq_some_iff.mp hmethod).1
      have hle : items.length ≤ 1 := List.getElem?_eq_none_iff.mp hid
      omega
    · next hlength =>
      rw [if_neg hlength] at hmethod
      cases hmethod
  | _ => cases hmethod

theorem handleRequest_cases (i : Interpreter) (r : Request) :
    (r.version = "2.0" ∧ r.id? = none) ∧ (handleRequest i r).1 = none ∨
      ¬ (r.version = "2.0" ∧ r.id? = none) ∧
        ∃ outcome, (handleRequest i r).1 = some ⟨r.id?.getD .null, outcome⟩ := by
  unfold handleRequest
  split
  · next hversion =>
    refine .inr ⟨?_, _, rfl⟩
    rintro ⟨h, -⟩
    exact hversion h
  · next hversion =>
    cases hid : r.id? with
    | none => exact .inl ⟨⟨Decidable.not_not.mp hversion, rfl⟩, rfl⟩
    | some id =>
      refine .inr ⟨?_, _, rfl⟩
      rintro ⟨-, hnone⟩
      cases hnone

/-- A message is left alone or answered once, under its identifier. -/
theorem handle_of_parse (h : Json.parse line = .ok message) (i : Interpreter) :
    Quiet message ∧ (handle i line).1 = none ∨
      ¬ Quiet message ∧ ∃ outcome, (handle i line).1 = some ⟨answerId message, outcome⟩ := by
  simp only [handle, h, answerId]
  cases hdecode : Request.decode message with
  | error cause =>
    refine .inr ⟨?_, _, rfl⟩
    rintro ⟨request, hrequest, -⟩
    rw [hdecode] at hrequest
    cases hrequest
  | ok request =>
    have hquiet : Quiet message ↔ request.version = "2.0" ∧ request.id? = none := by
      simp [Quiet, hdecode]
    rw [hquiet]
    exact handleRequest_cases i request

/-! ## Lines -/

/-- The line is an object that names a version and a method, and no identifier. -/
def Notifies (line : String) : Prop :=
  ∃ ms method, Json.Lists line ms ∧ Json.latest "jsonrpc" ms = some (.string "2.0") ∧
    Json.latest "method" ms = some (.string method) ∧ Json.latest "id" ms = none

theorem quiet_of_lists (ms : List (String × Json)) :
    Quiet (.object (Json.collect [] ms)) ↔
      Json.latest "jsonrpc" ms = some (.string "2.0") ∧
        (∃ method, Json.latest "method" ms = some (.string method)) ∧
        Json.latest "id" ms = none := by
  rw [quiet_iff]
  simp only [Json.field?, Json.lookup_collect_nil]

theorem notifies_iff : Notifies line ↔ ∃ message, Json.parse line = .ok message ∧ Quiet message := by
  constructor
  · rintro ⟨ms, method, hms, hversion, hmethod, hid⟩
    exact ⟨_, Json.parse_of_lists hms, (quiet_of_lists ms).mpr ⟨hversion, ⟨method, hmethod⟩, hid⟩⟩
  · rintro ⟨message, hparse, hquiet⟩
    obtain ⟨members, rfl⟩ := hquiet.exists_members
    obtain ⟨ms, hms, rfl⟩ := Json.exists_lists hparse
    obtain ⟨hversion, ⟨method, hmethod⟩, hid⟩ := (quiet_of_lists ms).mp hquiet
    exact ⟨ms, method, hms, hversion, hmethod, hid⟩

theorem notifies_iff_quiet (h : Json.parse line = .ok message) :
    Notifies line ↔ Quiet message := by
  rw [notifies_iff, h]
  simp

theorem not_notifies {cause : Json.SyntaxError} (h : Json.parse line = .error cause) :
    ¬ Notifies line := by
  rw [notifies_iff, h]
  rintro ⟨message, hmessage, -⟩
  cases hmessage

/-- An answer as it is sent, with either a result or an error. -/
structure Answers (sent : Json) (id : Json) : Prop where
  version : sent.member? "jsonrpc" = some (.string "2.0")
  id : sent.member? "id" = some id
  outcome : (∃ result, sent.member? "result" = some result) ↔ sent.member? "error" = none

theorem Response.answers (r : Response) : Answers r.toJson r.id := by
  obtain ⟨id, outcome⟩ := r
  cases outcome with
  | ok result => exact ⟨rfl, rfl, ⟨fun _ => rfl, fun _ => ⟨result, rfl⟩⟩⟩
  | error refusal =>
    refine ⟨rfl, rfl, ?_, ?_⟩
    · rintro ⟨result, hresult⟩
      cases hresult
    · intro herror
      cases herror

theorem handle_of_parse_error {cause : Json.SyntaxError} (h : Json.parse line = .error cause)
    (i : Interpreter) : (handle i line).1 = some ⟨.null, .error (.notJson cause)⟩ := by
  simp [handle, h]

/-- **Every line but a notification is answered once, under its identifier.** A notification is a
request of version 2.0 without an identifier, whatever else it holds; no other line is left without
an answer. An answer has either a result or an error. If the line is an object, the answer has the
identifier that stands last in it, even if that is null or the object is no request at all, and null
if there is none. If the line is not JSON, the answer has the identifier null and the code
-32700. -/
theorem handle_answers (i : Interpreter) (line : String) :
    (Notifies line ↔ ∃ message request, Json.parse line = .ok message ∧
      Request.decode message = .ok request ∧ request.version = "2.0" ∧ request.id? = none) ∧
    ((∃ members, Json.parse line = .ok (.object members)) ↔ ∃ ms, Json.Lists line ms) ∧
    (Notifies line ∧ (handle i line).1 = none ∨
      ¬ Notifies line ∧ ∃ response, (handle i line).1 = some response ∧
        Answers response.toJson response.id ∧
        (∀ ms, Json.Lists line ms → response.id = (Json.latest "id" ms).getD .null) ∧
        ((¬ ∃ message, Json.Spelled line message) → response.id = .null ∧
          ∃ error, response.toJson.member? "error" = some error ∧
            error.member? "code" = some (.int (-32700)))) := by
  refine ⟨?_, ?_, ?_⟩
  · rw [notifies_iff]
    constructor
    · rintro ⟨message, hparse, request, hrequest⟩
      exact ⟨message, request, hparse, hrequest⟩
    · rintro ⟨message, request, hparse, hrequest⟩
      exact ⟨message, hparse, request, hrequest⟩
  · constructor
    · rintro ⟨members, hparse⟩
      obtain ⟨ms, hms, -⟩ := Json.exists_lists hparse
      exact ⟨ms, hms⟩
    · rintro ⟨ms, hms⟩
      exact ⟨_, Json.parse_of_lists hms⟩
  · cases hparse : Json.parse line with
    | error cause =>
      refine .inr ⟨not_notifies hparse, _, handle_of_parse_error hparse i, Response.answers _, ?_, ?_⟩
      · intro ms hms
        rw [Json.parse_of_lists hms] at hparse
        cases hparse
      · exact fun _ => ⟨rfl, _, rfl, rfl⟩
    | ok message =>
      rw [notifies_iff_quiet hparse]
      rcases handle_of_parse hparse i with hquiet | ⟨hquiet, outcome, hresponse⟩
      · exact .inl hquiet
      · refine .inr ⟨hquiet, _, hresponse, Response.answers _, ?_, ?_⟩
        · intro ms hms
          rw [Json.parse_of_lists hms] at hparse
          cases hparse
          rw [answerId_object, Json.lookup_collect_nil]
        · exact fun hnone => absurd ⟨message, Json.parse_eq_ok_iff.mp hparse⟩ hnone

/-- `{"id":"a","jsonrpc":"2.0","method":"ping","id":null}` -/
def repeatedId : String :=
  "\x7b\"id\":\"a\",\"jsonrpc\":\"2.0\",\"method\":\"ping\",\"id\":null\x7d"

theorem lists_repeatedId :
    Json.Lists repeatedId [("id", .string "a"), ("jsonrpc", .string "2.0"),
      ("method", .string "ping"), ("id", .null)] := by
  have member : ∀ (name : String) {body rest : List Char} {j : Json}, Json.Spells 126 body j rest →
      Json.Member (Json.Spells 126) ('"' :: (name.toList.flatMap Json.escape ++ '"' :: ':' :: body))
        (name, j) rest := fun name _ _ _ h =>
    ⟨_, _, _, _, rfl, Json.readsString_escape name.toList _, rfl, String.ofList_toList.symm, h⟩
  have text : ∀ (s : String) (rest : List Char),
      Json.Spells 126 ('"' :: (s.toList.flatMap Json.escape ++ '"' :: rest)) (.string s) rest := by
    intro s rest
    have hs := Json.Scalar.string (Json.readsString_escape s.toList rest)
    rw [String.ofList_toList] at hs
    exact .scalar rfl hs
  have null : ∀ rest, Json.Spells 126 ('n' :: 'u' :: 'l' :: 'l' :: rest) .null rest :=
    fun _ => .scalar rfl .null
  have hid : Json.Row (Json.Member (Json.Spells 126)) '\x7d' _ _ [] :=
    .last (member "id" (null ['\x7d'])) rfl
  have hmethod := hid.cons (member "method" (text "ping" (',' :: _))) rfl
  have hversion := hmethod.cons (member "jsonrpc" (text "2.0" (',' :: _))) rfl
  have hrow := hversion.cons (member "id" (text "a" (',' :: _))) rfl
  exact ⟨_, [], by decide +kernel, .inr hrow, rfl⟩

/-- The last identifier counts, and it is there although it is null. -/
theorem handle_answers_repeatedId :
    ∃ response, (handle {} repeatedId).1 = some response ∧ response.id = .null := by
  rcases (handle_answers {} repeatedId).2.2 with ⟨h, -⟩ | ⟨-, response, hresponse, -, hid, -⟩
  · obtain ⟨ms, method, hms, -, -, hnone⟩ := h
    rw [Json.latest_unique hms lists_repeatedId] at hnone
    cases hnone
  · exact ⟨response, hresponse, hid _ lists_repeatedId⟩

end Reckon.Server
