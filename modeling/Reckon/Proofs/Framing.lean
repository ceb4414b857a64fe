import Reckon.Proofs.ToolCalls

/-!
# Answers are lines, and streams can be cut

Every answer is sent as one line. Its text is an object of JSON on one line, with the version, the
identifier, and a result or what is wrong. In it each newline of a string is escaped, so the
newlines of the output are those that end answers, and a reader that cuts the output at newlines
gets the answers back. A stream may be cut behind any line and served in two parts.

* `Json.newline_not_mem_compact`: a value on one line.
* `Server.Response.compact_toJson`: the text of an answer.
* `Lines.split_append`, `Lines.exists_prefix_of_split`: the lines of a stream and of its parts.
* `Server.serveLines_eq`: serving lines, as a session on the messages among them.
* `Server.serve_append`, `Server.serve_invalid`: a stream in two parts, and one with a line that is
  no text.
* `Server.serve_frames`: all of it.
-/

namespace Reckon

/-! ## Texts without newlines -/

namespace Decimal

theorem newline_not_mem_digits (n : Nat) : '\n' ∉ digits n := by
  intro h
  have hdigit : Char.isDigit '\n' = true := isDigit_of_mem_digits h
  exact absurd hdigit (by decide)

theorem newline_not_mem_chars (n : Int) : '\n' ∉ chars n := by
  intro h
  exact absurd (isDigit_or_minus_of_mem_chars h) (by decide)

end Decimal

namespace Json

theorem newline_not_mem_escape (c : Char) : '\n' ∉ escape c := by
  have hdigit : ∀ n < 16, Nat.digitChar n ≠ '\n' := by decide
  have hhex : ∀ n, hexDigit n ≠ '\n' := fun n => hdigit _ (Nat.mod_lt n (by decide))
  unfold escape
  split
  case h_8 hnewline _ _ =>
    split
    · simp [(hhex _).symm]
    · simpa using Ne.symm hnewline
  all_goals decide

theorem newline_not_mem_quote (s : String) : '\n' ∉ (quote s).toList := by
  have hinside : '\n' ∉ s.toList.flatMap escape := by
    intro h
    obtain ⟨c, -, hc⟩ := List.mem_flatMap.mp h
    exact newline_not_mem_escape c hc
  simpa [quote] using hinside

theorem newline_not_mem_positional {ds : List Char} (h : '\n' ∉ ds) (exponent : Int) :
    '\n' ∉ positional ds exponent := by
  have htake : ∀ n, '\n' ∉ ds.take n := fun n hn => h (List.mem_of_mem_take hn)
  have hdrop : ∀ n, '\n' ∉ ds.drop n := fun n hn => h (List.mem_of_mem_drop hn)
  unfold positional
  dsimp only
  split
  · simp [h]
  · split
    · simp [htake, hdrop]
    · simp [h]

theorem newline_not_mem_scientific {ds : List Char} (h : '\n' ∉ ds) (exponent : Int) :
    '\n' ∉ scientific ds exponent := by
  have htake : '\n' ∉ ds.take 1 := fun hn => h (List.mem_of_mem_take hn)
  have hdrop : '\n' ∉ ds.drop 1 := fun hn => h (List.mem_of_mem_drop hn)
  have hsign : ∀ power : Int, '\n' ≠ if power < 0 then '-' else '+' := by
    intro power
    split <;> decide
  simp only [scientific, List.mem_append, List.mem_cons, not_or]
  refine ⟨⟨htake, ?_⟩, by decide, hsign _, Decimal.newline_not_mem_digits _⟩
  split
  · exact List.not_mem_nil
  · rw [List.mem_cons, not_or]
    exact ⟨by decide, hdrop⟩

theorem newline_not_mem_doubleText (x : Float) : '\n' ∉ (doubleText x).toList := by
  have hmagnitude : ∀ b, '\n' ∉ magnitude b := by
    intro b
    unfold magnitude
    dsimp only
    split
    · exact newline_not_mem_positional (Decimal.newline_not_mem_digits _) _
    · exact newline_not_mem_scientific (Decimal.newline_not_mem_digits _) _
  unfold doubleText
  dsimp only
  split
  · decide
  · split <;> split <;> simp [hmagnitude]

mutual

/-- The compact text of a value stays on one line. -/
theorem newline_not_mem_compact (j : Json) : '\n' ∉ j.compact.toList :=
  match j with
  | null => by decide
  | bool b => by cases b <;> decide
  | int n => by simpa [compact] using Decimal.newline_not_mem_chars n
  | double x => by simpa [compact] using newline_not_mem_doubleText x
  | string s => by simpa [compact] using newline_not_mem_quote s
  | array items => by simpa [compact] using newline_not_mem_compactItems items
  | object members => by simpa [compact] using newline_not_mem_compactMembers members

theorem newline_not_mem_compactItems (items : List Json) :
    '\n' ∉ (compactItems items).toList :=
  match items with
  | [] => by decide
  | j :: rest => by
    have hj := newline_not_mem_compact j
    have hcomma : '\n' ∉ (if rest.isEmpty then "" else ",").toList := by split <;> decide
    have hrest := newline_not_mem_compactItems rest
    simp only [compactItems, String.toList_append, List.mem_append, not_or]
    exact ⟨⟨hj, hcomma⟩, hrest⟩

theorem newline_not_mem_compactMembers (members : List (String × Json)) :
    '\n' ∉ (compactMembers members).toList :=
  match members with
  | [] => by decide
  | (name, j) :: rest => by
    have hname := newline_not_mem_quote name
    have hj := newline_not_mem_compact j
    have hcomma : '\n' ∉ (if rest.isEmpty then "" else ",").toList := by split <;> decide
    have hrest := newline_not_mem_compactMembers rest
    simp only [compactMembers, String.toList_append, List.mem_append, not_or]
    exact ⟨⟨⟨⟨hname, by decide⟩, hj⟩, hcomma⟩, hrest⟩

end

end Json

/-! ## Streams and their lines -/

namespace Lines

/-- A stream that does not break off inside of a line. -/
def Whole (bytes : List UInt8) : Prop :=
  bytes = [] ∨ bytes.getLast? = some newline

theorem whole_append_iff {line rest : List UInt8} :
    Whole (line ++ newline :: rest) ↔ Whole rest := by
  cases rest with
  | nil => simp [Whole]
  | cons b bytes => simp [Whole, List.getLast?_cons]

/-- A stream is one unfinished line, or a line up to its newline and a stream behind it. -/
theorem stream_cases (bytes : List UInt8) :
    newline ∉ bytes ∨ ∃ line rest, newline ∉ line ∧ bytes = line ++ newline :: rest := by
  by_cases h : newline ∈ bytes
  · obtain ⟨line, rest, hbytes, hline⟩ := List.eq_append_cons_of_mem h
    exact .inr ⟨line, rest, hline, hbytes⟩
  · exact .inl h

theorem eq_nil_of_whole {bytes : List UInt8} (h : newline ∉ bytes) (hwhole : Whole bytes) :
    bytes = [] := by
  rcases hwhole with hnil | hlast
  · exact hnil
  · exact absurd (List.mem_of_getLast? hlast) h

/-- Behind a line the next one starts afresh. -/
theorem split_append {front : List UInt8} (h : Whole front) (back : List UInt8) :
    split (front ++ back) = split front ++ split back := by
  induction hlength : front.length using Nat.strongRecOn generalizing front with
  | _ n ih =>
    rcases stream_cases front with hline | ⟨line, rest, hline, rfl⟩
    · rw [eq_nil_of_whole hline h, split_nil]
      rfl
    · have hshorter : rest.length < n := by
        simp only [List.length_append, List.length_cons] at hlength
        omega
      have hrest := ih rest.length hshorter (whole_append_iff.mp h) rfl
      rw [List.append_assoc, List.cons_append, split_line hline, split_line hline, hrest]
      rfl

theorem length_split_le_one {bytes : List UInt8} (h : newline ∉ bytes) :
    (split bytes).length ≤ 1 := by
  by_cases hnil : bytes = []
  · rw [hnil, split_nil]
    exact Nat.zero_le 1
  · rw [split_last h hnil]
    exact Nat.le_refl 1

/-- The lines before some line are those of a part of the stream. -/
theorem exists_prefix_of_split {bytes line : List UInt8} {before later : List (List UInt8)}
    (h : split bytes = before ++ line :: later) :
    ∃ front, front <+: bytes ∧ Whole front ∧ split front = before := by
  induction before generalizing bytes with
  | nil => exact ⟨[], List.nil_prefix, .inl rfl, split_nil⟩
  | cons first before ih =>
    rcases stream_cases bytes with hinside | ⟨text, rest, htext, rfl⟩
    · -- an unfinished line has no line behind it
      have hlength := length_split_le_one hinside
      rw [h] at hlength
      simp only [List.length_append, List.length_cons] at hlength
      omega
    · rw [split_line htext, List.cons_append, List.cons.injEq] at h
      obtain ⟨front, ⟨more, rfl⟩, hwhole, hsplit⟩ := ih h.2
      refine ⟨text ++ newline :: front, ⟨more, by simp⟩, whole_append_iff.mpr hwhole, ?_⟩
      rw [split_line htext, hsplit, h.1]

end Lines

/-! ## Serving lines -/

namespace Server

variable {i : Interpreter} {bytes : List UInt8} {rest : List (List UInt8)} {line : String}

theorem serveLines_invalid (h : Lines.text? bytes = none) :
    serveLines i (bytes :: rest) = ⟨[], i, false⟩ := by
  simp only [serveLines, h]

theorem serveLines_blank (h : Lines.text? bytes = some line)
    (hblank : Blank.isBlankText line = true) :
    serveLines i (bytes :: rest) = serveLines i rest := by
  simp only [serveLines, h, hblank, if_true]

theorem serveLines_message (h : Lines.text? bytes = some line)
    (hblank : Blank.isBlankText line = false) :
    serveLines i (bytes :: rest) =
      ⟨(handle i line).1.toList ++ (serveLines (handle i line).2 rest).responses,
        (serveLines (handle i line).2 rest).interpreter,
        (serveLines (handle i line).2 rest).complete⟩ := by
  simp only [serveLines, h, hblank, Bool.false_eq_true, if_false]

/-- The messages among some lines: those that are not blank, up to the first line that is no
text. -/
def messages (lines : List (List UInt8)) : List String :=
  (((lines.map Lines.text?).takeWhile Option.isSome).filterMap id).filter
    fun line => !Blank.isBlankText line

theorem messages_invalid (h : Lines.text? bytes = none) : messages (bytes :: rest) = [] := by
  simp [messages, h]

theorem messages_blank (h : Lines.text? bytes = some line)
    (hblank : Blank.isBlankText line = true) : messages (bytes :: rest) = messages rest := by
  simp [messages, h, hblank]

theorem messages_message (h : Lines.text? bytes = some line)
    (hblank : Blank.isBlankText line = false) :
    messages (bytes :: rest) = line :: messages rest := by
  simp [messages, h, hblank]

/-- The answers to some messages; not every message has one. -/
def answers (i : Interpreter) (lines : List String) : List Response :=
  (trace handle i lines).filterMap Prod.fst

theorem answers_cons (i : Interpreter) (line : String) (lines : List String) :
    answers i (line :: lines) = (handle i line).1.toList ++ answers (handle i line).2 lines := by
  rw [answers, trace, List.filterMap_cons]
  cases (handle i line).1 <;> rfl

/-- Lines are served as a session on the messages among them. -/
theorem serveLines_eq (i : Interpreter) (lines : List (List UInt8)) :
    serveLines i lines =
      ⟨answers i (messages lines), after handle i (messages lines),
        lines.all fun line => (Lines.text? line).isSome⟩ := by
  induction lines generalizing i with
  | nil => rfl
  | cons bytes rest ih =>
    cases htext : Lines.text? bytes with
    | none =>
      rw [serveLines_invalid htext, messages_invalid htext, List.all_cons, htext]
      rfl
    | some line =>
      have hall : ((bytes :: rest).all fun line => (Lines.text? line).isSome) =
          rest.all fun line => (Lines.text? line).isSome := by
        rw [List.all_cons, htext, Option.isSome_some, Bool.true_and]
      cases hblank : Blank.isBlankText line with
      | true => rw [serveLines_blank htext hblank, messages_blank htext hblank, hall, ih]
      | false =>
        rw [serveLines_message htext hblank, messages_message htext hblank, hall, ih, answers_cons,
          after_cons]

/-! ## Lines in two parts -/

theorem messages_append {front : List (List UInt8)}
    (h : ∀ line ∈ front, (Lines.text? line).isSome = true) (back : List (List UInt8)) :
    messages (front ++ back) = messages front ++ messages back := by
  induction front with
  | nil => rfl
  | cons bytes front ih =>
    obtain ⟨hbytes, hfront⟩ := List.forall_mem_cons.mp h
    obtain ⟨line, htext⟩ := Option.isSome_iff_exists.mp hbytes
    rw [List.cons_append]
    cases hblank : Blank.isBlankText line with
    | true => rw [messages_blank htext hblank, messages_blank htext hblank, ih hfront]
    | false =>
      rw [messages_message htext hblank, messages_message htext hblank, ih hfront,
        List.cons_append]

theorem answers_append (i : Interpreter) (front back : List String) :
    answers i (front ++ back) = answers i front ++ answers (after handle i front) back := by
  induction front generalizing i with
  | nil => rfl
  | cons line front ih =>
    rw [List.cons_append, answers_cons, answers_cons, ih, after_cons, List.append_assoc]

theorem serve_eq (i : Interpreter) (bytes : List UInt8) :
    serve i bytes =
      ⟨answers i (messages (Lines.split bytes)), after handle i (messages (Lines.split bytes)),
        (Lines.split bytes).all fun line => (Lines.text? line).isSome⟩ :=
  serveLines_eq i (Lines.split bytes)

theorem complete_iff (i : Interpreter) (bytes : List UInt8) :
    (serve i bytes).complete = true ↔
      ∀ line ∈ Lines.split bytes, (Lines.text? line).isSome = true := by
  rw [serve_eq, List.all_eq_true]

/-- A stream that is cut behind a line is served in two parts. -/
theorem serve_append {front : List UInt8} (hwhole : Lines.Whole front)
    (hcomplete : (serve i front).complete = true) (back : List UInt8) :
    serve i (front ++ back) =
      ⟨(serve i front).responses ++ (serve (serve i front).interpreter back).responses,
        (serve (serve i front).interpreter back).interpreter,
        (serve (serve i front).interpreter back).complete⟩ := by
  have htexts := (complete_iff i front).mp hcomplete
  have hall : ((Lines.split front).all fun line => (Lines.text? line).isSome) = true :=
    List.all_eq_true.mpr htexts
  simp only [serve_eq, Lines.split_append hwhole, messages_append htexts, answers_append,
    after_append, List.all_append, hall, Bool.true_and]

/-- A line that is no text ends the service, which is that of the lines before it. -/
theorem serve_invalid {line : List UInt8} {before later : List (List UInt8)}
    (h : Lines.split bytes = before ++ line :: later)
    (hbefore : ∀ line ∈ before, (Lines.text? line).isSome = true)
    (hline : Lines.text? line = none) :
    ∃ front, front <+: bytes ∧ Lines.Whole front ∧ Lines.split front = before ∧
      (serve i front).complete = true ∧
      serve i bytes = { serve i front with complete := false } := by
  obtain ⟨front, hprefix, hwhole, hsplit⟩ := Lines.exists_prefix_of_split h
  refine ⟨front, hprefix, hwhole, hsplit, ?_, ?_⟩
  · rw [complete_iff, hsplit]
    exact hbefore
  · have hmessages : messages (before ++ line :: later) = messages before := by
      rw [messages_append hbefore, messages_invalid hline, List.append_nil]
    have hall : ((before ++ line :: later).all fun line => (Lines.text? line).isSome) = false := by
      simp [hline]
    simp only [serve_eq, h, hsplit, hmessages, hall]

/-! ## The output -/

/-- The text of an answer, member by member. -/
def Response.text (r : Response) : String :=
  match r.outcome with
  | .ok result =>
    "\x7b\"jsonrpc\":\"2.0\",\"id\":" ++ r.id.compact ++ ",\"result\":" ++ result.compact ++ "\x7d"
  | .error refusal =>
    "\x7b\"jsonrpc\":\"2.0\",\"id\":" ++ r.id.compact ++ ",\"error\":\x7b\"code\":" ++
      Decimal.text refusal.code ++ ",\"message\":" ++ Json.quote refusal.message ++ "\x7d\x7d"

theorem Response.compact_toJson (r : Response) : r.toJson.compact = r.text := by
  have hversion : Json.quote "jsonrpc" = "\"jsonrpc\"" := rfl
  have htwo : Json.quote "2.0" = "\"2.0\"" := rfl
  have hid : Json.quote "id" = "\"id\"" := rfl
  have hresult : Json.quote "result" = "\"result\"" := rfl
  have herror : Json.quote "error" = "\"error\"" := rfl
  have hcode : Json.quote "code" = "\"code\"" := rfl
  have hmessage : Json.quote "message" = "\"message\"" := rfl
  obtain ⟨id, refusal | result⟩ := r
  · rw [← String.toList_inj]
    simp [toJson, text, Json.compact, Json.compactMembers, hversion, htwo, hid, herror, hcode,
      hmessage]
  · rw [← String.toList_inj]
    simp [toJson, text, Json.compact, Json.compactMembers, hversion, htwo, hid, hresult]

theorem Served.output_append {front back whole : Served}
    (h : whole.responses = front.responses ++ back.responses) :
    whole.output = front.output ++ back.output := by
  simp only [Served.output, h, List.map_append, String.join_append]

theorem Response.newline_not_mem_text (r : Response) : '\n' ∉ r.text.toList := by
  rw [← r.compact_toJson]
  exact Json.newline_not_mem_compact r.toJson

theorem Served.output_eq (s : Served) :
    s.output = String.join (s.responses.map fun r => r.text ++ "\n") := by
  have hline : Response.line = fun r => r.text ++ "\n" := by
    funext r
    rw [Response.line, r.compact_toJson]
  rw [output, hline]

/-- The newlines of the output are those that end answers. -/
theorem splitOn_lines (responses : List Response) :
    (String.join (responses.map fun r => r.text ++ "\n")).toList.splitOn '\n' =
      responses.map (fun r => r.text.toList) ++ [[]] := by
  induction responses with
  | nil => rfl
  | cons r responses ih =>
    have htext : (String.join ((r :: responses).map fun r => r.text ++ "\n")).toList =
        r.text.toList ++
          '\n' :: (String.join (responses.map fun r => r.text ++ "\n")).toList := by
      simp
    rw [htext, List.splitOn_append_cons_self_of_not_mem r.newline_not_mem_text, ih]
    rfl

/-- **The service frames its answers, and streams compose.** The output is one line for each answer
to a message, in their order, with the state that the messages lead to. The line is the answer as an
object of JSON, spelled out by `Response.text`. No answer holds a newline, so the output cut at
newlines is the answers, and nothing behind the last newline. A line that is no text ends the
service, and all but the ending is as if only the lines before it were served. A stream that is cut
behind a line is served in two parts, the second from the state that the first leads to. -/
theorem serve_frames (i : Interpreter) (bytes : List UInt8) :
    ((serve i bytes).output =
        String.join ((answers i (messages (Lines.split bytes))).map fun r => r.text ++ "\n") ∧
      (serve i bytes).interpreter = after handle i (messages (Lines.split bytes))) ∧
    ((∀ r : Response, r.toJson.compact = r.text ∧ '\n' ∉ r.text.toList) ∧
      (serve i bytes).output.toList.splitOn '\n' =
        (answers i (messages (Lines.split bytes))).map (fun r => r.text.toList) ++ [[]]) ∧
    (((serve i bytes).complete = true ↔
        ∀ line ∈ Lines.split bytes, (Lines.text? line).isSome = true) ∧
      ∀ before line later, Lines.split bytes = before ++ line :: later →
        (∀ text ∈ before, (Lines.text? text).isSome = true) → Lines.text? line = none →
        ∃ front, front <+: bytes ∧ Lines.Whole front ∧ Lines.split front = before ∧
          (serve i front).complete = true ∧
          serve i bytes = { serve i front with complete := false }) ∧
    ∀ a b, Lines.Whole a → (serve i a).complete = true →
      (serve i (a ++ b)).output =
          (serve i a).output ++ (serve (serve i a).interpreter b).output ∧
        (serve i (a ++ b)).interpreter = (serve (serve i a).interpreter b).interpreter ∧
        (serve i (a ++ b)).complete = (serve (serve i a).interpreter b).complete := by
  have houtput := Served.output_eq (serve i bytes)
  rw [serve_eq] at houtput
  refine ⟨⟨?_, ?_⟩, ⟨fun r => ⟨r.compact_toJson, r.newline_not_mem_text⟩, ?_⟩,
    ⟨complete_iff i bytes, fun before line later h hbefore hline =>
      serve_invalid h hbefore hline⟩, fun a b hwhole hcomplete => ?_⟩
  · rw [serve_eq]
    exact houtput
  · rw [serve_eq]
  · rw [serve_eq, houtput]
    exact splitOn_lines _
  · have happend := serve_append hwhole hcomplete b
    refine ⟨Served.output_append ?_, ?_, ?_⟩
    · rw [happend]
    · rw [happend]
    · rw [happend]

theorem text?_toUTF8 (s : String) : Lines.text? s.toUTF8.data.toList = some s := by
  have hbytes : (⟨s.toUTF8.data.toList.toArray⟩ : ByteArray) = s.toUTF8 := by
    rw [Array.toArray_toList]
  rw [Lines.text?, hbytes]
  exact dif_pos s.isValidUTF8

theorem isBlankText_object (members : Entries Json) :
    Blank.isBlankText (Json.object members).compact = false := by
  have hbrace : Blank.isBlank '\x7b' = false := by decide
  simp [Blank.isBlankText, Json.compact, hbrace]

/-- The bytes of a message that calls for the drawing of `-1`. -/
def drawingCall : List UInt8 :=
  (callMessage "a" "render(-1)").compact.toUTF8.data.toList

/-- The call, and the line `"a"`, which is no request. -/
def twoLines : List UInt8 :=
  drawingCall ++ Lines.newline :: ([34, 97, 34] ++ Lines.newline :: [])

theorem split_twoLines : Lines.split twoLines = [drawingCall, [34, 97, 34]] := by
  have hcall : Lines.dropReturn drawingCall = drawingCall := if_neg (by decide +kernel)
  rw [twoLines, Lines.split_line (by decide +kernel), hcall, Lines.split_line (by decide),
    Lines.split_nil]
  rfl

theorem messages_twoLines :
    messages (Lines.split twoLines) =
      [(callMessage "a" "render(-1)").compact, (Json.string "a").compact] := by
  have hcall : Lines.text? drawingCall = some (callMessage "a" "render(-1)").compact :=
    text?_toUTF8 _
  have hword : Lines.text? [34, 97, 34] = some (Json.string "a").compact := by decide
  rw [split_twoLines, messages_message hcall (isBlankText_object _),
    messages_message hword (by decide)]
  rfl

/-- The answers to the two lines. The newline of the drawing is escaped. -/
def twoAnswers : String :=
  "\x7b\"jsonrpc\":\"2.0\",\"id\":\"a\",\"result\":\x7b\"content\":[\x7b\"text\":" ++
    "\"└── UNARY_OP(-)\\n    └── NUMBER(1)\",\"type\":\"text\"\x7d],\"isError\":false\x7d\x7d\n" ++
  "\x7b\"jsonrpc\":\"2.0\",\"id\":null,\"error\":\x7b\"code\":-32600,\"message\":" ++
    "\"Invalid request: invalid type: string \\\"a\\\", expected struct Request\"\x7d\x7d\n"

theorem answers_twoLines :
    String.join ((answers {} (messages (Lines.split twoLines))).map fun r => r.text ++ "\n") =
      twoAnswers := by
  have hparse : Stmt.parse "render(-1)" = .ok (.render (.unary .minus (.number 1))) :=
    toOption_eq_some.mp (by decide +kernel)
  have hcall := handle_of_asked (asked?_callMessage "a" "render(-1)") {}
  have hword : Json.parse (Json.string "a").compact = .ok (.string "a") :=
    Json.parse_compact (Json.readBack_string _ "a")
  rw [Interpreter.run_of_parse_render hparse] at hcall
  rw [messages_twoLines, answers_cons, hcall, answers_cons, handle, hword]
  decide +kernel

/-- A drawing and a refusal are sent as two lines, and a byte that is no text changes nothing of
them. -/
theorem serve_frames_broken_line :
    Lines.Whole twoLines ∧ (serve {} twoLines).complete = true ∧ Lines.text? [255] = none ∧
      (serve {} twoLines).output = twoAnswers ∧
      (serve {} (twoLines ++ [255])).output =
        (serve {} twoLines).output ++ (serve (serve {} twoLines).interpreter [255]).output ∧
      ∃ front, front <+: twoLines ++ [255] ∧ Lines.Whole front ∧
        Lines.split front = Lines.split twoLines ∧ (serve {} front).complete = true ∧
        serve {} (twoLines ++ [255]) = { serve {} front with complete := false } := by
  have hwhole : Lines.Whole twoLines := Lines.whole_append_iff.mpr (.inr rfl)
  have htexts : ∀ line ∈ Lines.split twoLines, (Lines.text? line).isSome = true := by
    rw [split_twoLines, List.forall_mem_cons, List.forall_mem_singleton]
    exact ⟨Option.isSome_iff_exists.mpr ⟨_, text?_toUTF8 _⟩, by decide⟩
  have hinvalid : Lines.text? [255] = none := by decide
  have hsplit : Lines.split (twoLines ++ [255]) = Lines.split twoLines ++ [255] :: [] := by
    have hlast : Lines.split [255] = [[255]] := Lines.split_last (by decide) (by decide)
    rw [Lines.split_append hwhole, hlast]
  have hcomplete : (serve {} twoLines).complete = true :=
    (complete_iff {} twoLines).mpr htexts
  obtain ⟨⟨houtput, -⟩, -⟩ := serve_frames {} twoLines
  obtain ⟨-, -, ⟨-, hbroken⟩, hcut⟩ := serve_frames {} (twoLines ++ [255])
  exact ⟨hwhole, hcomplete, hinvalid, houtput.trans answers_twoLines,
    (hcut twoLines [255] hwhole hcomplete).1, hbroken _ [255] [] hsplit htexts hinvalid⟩

end Server

end Reckon
