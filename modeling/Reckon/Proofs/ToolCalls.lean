import Reckon.Proofs.Messages
import Reckon.Proofs.Runs

/-!
# The tool server is an interpreter

A line asks for a calculation if it is a request of the right version with an identifier that calls
the tool on an expression (`asked?`). Such a line is a run of the interpreter, and every other line
leaves the interpreter alone, so a session of the server is a session of the interpreter on the
expressions that were asked for.

* `Request.decode_eq_ok`, `Call.decode_eq_ok`, `Arguments.decode_eq_some`: what is decoded, by the
  fields of a record.
* `asked?_eq_some`: the lines that ask for a calculation, by what they are decoded to.
* `asked?_callMessage`: every expression can be asked for.
* `handle_of_asked`, `handle_of_not_asked`: one line.
* `refines_interpreter`: a session.
-/

namespace Reckon

/-! ## Records -/

/-- A field of a record. An object names its fields, and an array lists them in the order of
`names`, without further items. -/
def Json.field? (names : List String) (j : Json) (name : String) : Option Json :=
  match j with
  | object members => Entries.lookup name members
  | array items => if items.length ≤ names.length then items[names.idxOf name]? else none
  | _ => none

/-- The text that stands for the outcome of a run: the digits of an integer, a drawing as it is, or
what is wrong. -/
def display : Except Failure Value → String
  | .ok (.int n) => Decimal.text n
  | .ok (.tree drawing) => drawing
  | .error failure => failure.message

theorem Value.text_eq_display (v : Value) : v.text = display (.ok v) := by
  cases v <;> rfl

namespace Server

theorem bind_eq_ok {ε α β : Type} {x : Except ε α} {f : α → Except ε β} {b : β} :
    x >>= f = .ok b ↔ ∃ a, x = .ok a ∧ f a = .ok b := by
  cases x <;> simp [bind, Except.bind]

theorem textOf_eq_ok {j : Json} {s : String} : textOf j = .ok s ↔ j = .string s := by
  cases j <;> simp [textOf]

theorem atMost_eq_ok {fields : Nat} {items : List Json} {u : Unit} :
    atMost fields items = .ok u ↔ items.length ≤ fields := by
  by_cases h : items.length ≤ fields <;> simp [atMost, h]

theorem Request.versionOf_eq_ok {version? : Option Json} {s : String} :
    versionOf version? = .ok s ↔
      match version? with
      | some version => version = .string s
      | none => s = "" := by
  cases version? with
  | none =>
    constructor
    · intro h
      exact (Except.ok.inj h).symm
    · rintro rfl
      rfl
  | some version => exact textOf_eq_ok

theorem Call.argumentsOf_eq_ok {arguments? : Option Json} {a : Arguments} :
    argumentsOf arguments? = .ok a ↔
      match arguments? with
      | some arguments => Arguments.decode arguments = .ok a
      | none => a = {} := by
  cases arguments? with
  | none =>
    constructor
    · intro h
      exact (Except.ok.inj h).symm
    · rintro rfl
      rfl
  | some arguments => exact Iff.rfl

def Request.fields : List String := ["jsonrpc", "id", "method", "params"]

theorem Request.ofMembers_eq_ok {members : Entries Json} {r : Request} :
    Request.ofMembers members = .ok r ↔
      (match members.lookup "jsonrpc" with
        | some version => version = .string r.version
        | none => r.version = "") ∧
      members.lookup "id" = r.id? ∧
      members.lookup "method" = some (.string r.method) ∧
      (members.lookup "params").getD .null = r.params := by
  rw [ofMembers, bind_eq_ok]
  cases members.lookup "method" with
  | none =>
    constructor
    · rintro ⟨version, -, ⟨⟩⟩
    · rintro ⟨-, -, ⟨⟩, -⟩
  | some j =>
    constructor
    · rintro ⟨version, hversion, h⟩
      obtain ⟨method, hmethod, h⟩ := bind_eq_ok.mp h
      cases h
      exact ⟨versionOf_eq_ok.mp hversion, rfl, congrArg some (textOf_eq_ok.mp hmethod), rfl⟩
    · rintro ⟨hversion, hid, hmethod, hparams⟩
      refine ⟨r.version, versionOf_eq_ok.mpr hversion, bind_eq_ok.mpr ⟨r.method, ?_, ?_⟩⟩
      · exact textOf_eq_ok.mpr (Option.some.inj hmethod)
      · rw [hid, hparams]
        rfl

theorem Request.ofItems_eq_ok {items : List Json} {r : Request} :
    Request.ofItems items = .ok r ↔ items.length ≤ 4 ∧
      (match items[0]? with
        | some version => version = .string r.version
        | none => r.version = "") ∧
      items[1]? = r.id? ∧
      items[2]? = some (.string r.method) ∧
      items[3]?.getD .null = r.params := by
  rw [ofItems, bind_eq_ok]
  cases items[2]? with
  | none =>
    constructor
    · rintro ⟨version, -, ⟨⟩⟩
    · rintro ⟨-, -, -, ⟨⟩, -⟩
  | some j =>
    constructor
    · rintro ⟨version, hversion, h⟩
      obtain ⟨method, hmethod, h⟩ := bind_eq_ok.mp h
      obtain ⟨_, hlength, h⟩ := bind_eq_ok.mp h
      cases h
      exact ⟨atMost_eq_ok.mp hlength, versionOf_eq_ok.mp hversion, rfl,
        congrArg some (textOf_eq_ok.mp hmethod), rfl⟩
    · rintro ⟨hlength, hversion, hid, hmethod, hparams⟩
      refine ⟨r.version, versionOf_eq_ok.mpr hversion, bind_eq_ok.mpr ⟨r.method, ?_,
        bind_eq_ok.mpr ⟨(), atMost_eq_ok.mpr hlength, ?_⟩⟩⟩
      · exact textOf_eq_ok.mpr (Option.some.inj hmethod)
      · rw [hid, hparams]
        rfl

theorem Request.decode_eq_ok {j : Json} {r : Request} :
    Request.decode j = .ok r ↔
      (match j.field? fields "jsonrpc" with
        | some version => version = .string r.version
        | none => r.version = "") ∧
      j.field? fields "id" = r.id? ∧
      j.field? fields "method" = some (.string r.method) ∧
      (j.field? fields "params").getD .null = r.params := by
  cases j with
  | object members => exact ofMembers_eq_ok
  | array items =>
    have hversion : fields.idxOf "jsonrpc" = 0 := rfl
    have hid : fields.idxOf "id" = 1 := rfl
    have hmethod : fields.idxOf "method" = 2 := rfl
    have hparams : fields.idxOf "params" = 3 := rfl
    have hfields : fields.length = 4 := rfl
    rw [decode, ofItems_eq_ok]
    by_cases hlength : items.length ≤ 4
    · simp [Json.field?, hversion, hid, hmethod, hparams, hfields, hlength]
    · simp [Json.field?, hfields, hlength]
  | _ => simp [decode, Json.field?]

def Call.fields : List String := ["name", "arguments"]
def Arguments.fields : List String := ["expression"]

theorem Call.ofMembers_eq_ok {members : Entries Json} {c : Call} :
    Call.ofMembers members = .ok c ↔
      members.lookup "name" = some (.string c.tool) ∧
      (match members.lookup "arguments" with
        | some arguments => Arguments.decode arguments = .ok c.arguments
        | none => c.arguments = {}) := by
  rw [ofMembers, bind_eq_ok]
  cases members.lookup "name" with
  | none =>
    constructor
    · rintro ⟨arguments, -, ⟨⟩⟩
    · rintro ⟨⟨⟩, -⟩
  | some j =>
    constructor
    · rintro ⟨arguments, harguments, h⟩
      obtain ⟨tool, htool, h⟩ := bind_eq_ok.mp h
      cases h
      exact ⟨congrArg some (textOf_eq_ok.mp htool), argumentsOf_eq_ok.mp harguments⟩
    · rintro ⟨htool, harguments⟩
      exact ⟨c.arguments, argumentsOf_eq_ok.mpr harguments,
        bind_eq_ok.mpr ⟨c.tool, textOf_eq_ok.mpr (Option.some.inj htool), rfl⟩⟩

theorem Call.ofItems_eq_ok {items : List Json} {c : Call} :
    Call.ofItems items = .ok c ↔ items.length ≤ 2 ∧
      items[0]? = some (.string c.tool) ∧
      (match items[1]? with
        | some arguments => Arguments.decode arguments = .ok c.arguments
        | none => c.arguments = {}) := by
  rw [ofItems]
  cases items[0]? with
  | none =>
    constructor
    · rintro ⟨⟩
    · rintro ⟨-, ⟨⟩, -⟩
  | some j =>
    constructor
    · intro h
      obtain ⟨tool, htool, h⟩ := bind_eq_ok.mp h
      obtain ⟨arguments, harguments, h⟩ := bind_eq_ok.mp h
      obtain ⟨_, hlength, h⟩ := bind_eq_ok.mp h
      cases h
      exact ⟨atMost_eq_ok.mp hlength, congrArg some (textOf_eq_ok.mp htool),
        argumentsOf_eq_ok.mp harguments⟩
    · rintro ⟨hlength, htool, harguments⟩
      exact bind_eq_ok.mpr ⟨c.tool, textOf_eq_ok.mpr (Option.some.inj htool),
        bind_eq_ok.mpr ⟨c.arguments, argumentsOf_eq_ok.mpr harguments,
          bind_eq_ok.mpr ⟨(), atMost_eq_ok.mpr hlength, rfl⟩⟩⟩

theorem Call.decode_eq_ok {j : Json} {c : Call} :
    Call.decode j = .ok c ↔
      j.field? fields "name" = some (.string c.tool) ∧
      (match j.field? fields "arguments" with
        | some arguments => Arguments.decode arguments = .ok c.arguments
        | none => c.arguments = {}) := by
  cases j with
  | object members => exact ofMembers_eq_ok
  | array items =>
    have htool : fields.idxOf "name" = 0 := rfl
    have harguments : fields.idxOf "arguments" = 1 := rfl
    have hfields : fields.length = 2 := rfl
    rw [decode, ofItems_eq_ok]
    by_cases hlength : items.length ≤ 2
    · simp [Json.field?, htool, harguments, hfields, hlength]
    · simp [Json.field?, hfields, hlength]
  | _ => simp [decode, Json.field?]

theorem Arguments.expressionOf_eq_some {j : Json} {e : String} :
    expressionOf j = .ok ⟨some e⟩ ↔ j = .string e := by
  cases j <;> simp [expressionOf, textOf, Except.map]

theorem Arguments.decode_eq_some {j : Json} {e : String} :
    Arguments.decode j = .ok ⟨some e⟩ ↔ j.field? fields "expression" = some (.string e) := by
  cases j with
  | object members =>
    simp only [decode, Json.field?]
    cases Entries.lookup "expression" members with
    | none => simp
    | some j => simp [expressionOf_eq_some]
  | array items =>
    cases items with
    | nil => simp [decode, Json.field?]
    | cons j rest =>
      rw [decode, bind_eq_ok]
      cases rest with
      | nil =>
        simp [Json.field?, fields, bind_eq_ok, atMost, expressionOf_eq_some, pure, Except.pure]
      | cons => simp [Json.field?, fields, atMost, Functor.map, Except.map]
  | _ => simp [decode, Json.field?]

/-! An absent field has a value that asks for nothing. -/

theorem Request.field?_version {j : Json} {r : Request} (h : Request.decode j = .ok r)
    (hversion : r.version = "2.0") : j.field? fields "jsonrpc" = some (.string "2.0") := by
  obtain ⟨hfield, -⟩ := Request.decode_eq_ok.mp h
  cases hv : j.field? fields "jsonrpc" with
  | none =>
    rw [hv, hversion] at hfield
    exact absurd hfield (by decide)
  | some version =>
    rw [hv, hversion] at hfield
    rw [hfield]

theorem Request.field?_params {j : Json} {r : Request} {c : Call} (h : Request.decode j = .ok r)
    (hcall : Call.decode r.params = .ok c) : j.field? fields "params" = some r.params := by
  obtain ⟨-, -, -, hfield⟩ := Request.decode_eq_ok.mp h
  cases hp : j.field? fields "params" with
  | none =>
    rw [hp] at hfield
    rw [← hfield] at hcall
    cases hcall
  | some params =>
    rw [hp] at hfield
    exact congrArg some hfield

theorem Call.field?_arguments {j : Json} {c : Call} {expression : String}
    (h : Call.decode j = .ok c) (hexpression : c.arguments.expression? = some expression) :
    ∃ arguments, j.field? fields "arguments" = some arguments ∧
      arguments.field? Arguments.fields "expression" = some (.string expression) := by
  obtain ⟨-, hfield⟩ := Call.decode_eq_ok.mp h
  have hgiven : c.arguments = ⟨some expression⟩ := by
    rw [← hexpression]
  rw [hgiven] at hfield
  cases ha : j.field? fields "arguments" with
  | none =>
    rw [ha] at hfield
    cases hfield
  | some arguments =>
    rw [ha] at hfield
    exact ⟨arguments, rfl, Arguments.decode_eq_some.mp hfield⟩

/-! ## Lines -/

/-- The identifier and the expression of a line that asks for a calculation: a request of version
2.0 with an identifier, whose method is a tool call and whose parameters name the tool and hold an
expression. -/
def asked? (line : String) : Option (Json × String) := do
  let message ← (Json.parse line).toOption
  let request ← (Request.decode message).toOption
  let call ← (Call.decode request.params).toOption
  let id ← request.id?
  let expression ← call.arguments.expression?
  if request.version = "2.0" ∧ request.method = "tools/call" ∧ call.tool = "calculate" then
    some (id, expression)
  else none

theorem asked?_eq_some {line : String} {id : Json} {expression : String} :
    asked? line = some (id, expression) ↔
      ∃ message request call, Json.parse line = .ok message ∧
        Request.decode message = .ok request ∧ Call.decode request.params = .ok call ∧
        request.version = "2.0" ∧ request.id? = some id ∧ request.method = "tools/call" ∧
        call.tool = "calculate" ∧ call.arguments.expression? = some expression := by
  simp only [asked?, bind, Option.bind_eq_some_iff, toOption_eq_some, Option.ite_none_right_eq_some,
    Option.some.injEq, Prod.mk.injEq]
  constructor
  · rintro ⟨message, hmessage, request, hrequest, call, hcall, _, hid, _, hexpression,
      ⟨hversion, hmethod, htool⟩, rfl, rfl⟩
    exact ⟨message, request, call, hmessage, hrequest, hcall, hversion, hid, hmethod, htool,
      hexpression⟩
  · rintro ⟨message, request, call, hmessage, hrequest, hcall, hversion, hid, hmethod, htool,
      hexpression⟩
    exact ⟨message, hmessage, request, hrequest, call, hcall, id, hid, expression, hexpression,
      ⟨hversion, hmethod, htool⟩, rfl, rfl⟩

/-- The fields of a line that asks for a calculation. -/
def Asks (line : String) (id : Json) (expression : String) : Prop :=
  ∃ message params arguments, Json.parse line = .ok message ∧
    message.field? Request.fields "jsonrpc" = some (.string "2.0") ∧
    message.field? Request.fields "id" = some id ∧
    message.field? Request.fields "method" = some (.string "tools/call") ∧
    message.field? Request.fields "params" = some params ∧
    params.field? Call.fields "name" = some (.string "calculate") ∧
    params.field? Call.fields "arguments" = some arguments ∧
    arguments.field? Arguments.fields "expression" = some (.string expression)

theorem asked?_eq_some_iff_asks {line : String} {id : Json} {expression : String} :
    asked? line = some (id, expression) ↔ Asks line id expression := by
  rw [asked?_eq_some]
  constructor
  · rintro ⟨message, request, call, hmessage, hrequest, hcall, hversion, hid, hmethod, htool,
      hexpression⟩
    obtain ⟨-, hid', hmethod', -⟩ := Request.decode_eq_ok.mp hrequest
    obtain ⟨htool', -⟩ := Call.decode_eq_ok.mp hcall
    obtain ⟨arguments, harguments, hexpression'⟩ := Call.field?_arguments hcall hexpression
    refine ⟨message, request.params, arguments, hmessage, Request.field?_version hrequest hversion,
      ?_, ?_, Request.field?_params hrequest hcall, ?_, harguments, hexpression'⟩
    · rw [hid', hid]
    · rw [hmethod', hmethod]
    · rw [htool', htool]
  · rintro ⟨message, params, arguments, hmessage, hversion, hid, hmethod, hparams, htool,
      harguments, hexpression⟩
    refine ⟨message, ⟨"2.0", some id, "tools/call", params⟩, ⟨"calculate", ⟨some expression⟩⟩,
      hmessage, Request.decode_eq_ok.mpr ?_, Call.decode_eq_ok.mpr ?_, rfl, rfl, rfl, rfl, rfl⟩
    · simp [hversion, hid, hmethod, hparams]
    · simp [htool, harguments, Arguments.decode_eq_some, hexpression]

theorem asked?_callMessage (id expression : String) :
    asked? (callMessage id expression).compact = some (.string id, expression) :=
  asked?_eq_some_iff_asks.mpr
    ⟨_, _, _, parse_callMessage id expression, rfl, rfl, rfl, rfl, rfl, rfl, rfl⟩

example :
    asked? "[\"2.0\", 7, \"tools/call\", [\"calculate\", [\"1 + 1\"]]]" =
      some (.int 7, "1 + 1") := by
  cbv

/-- A line that asks for a calculation is a run. -/
theorem handle_of_asked {line : String} {id : Json} {expression : String}
    (h : asked? line = some (id, expression)) (i : Interpreter) :
    handle i line =
      (some ⟨id, .ok (calculation (i.run expression).1)⟩, (i.run expression).2) := by
  obtain ⟨message, request, call, hmessage, hrequest, hcall, hversion, hid, hmethod, htool,
    hexpression⟩ := asked?_eq_some.mp h
  simp [handle, hmessage, hrequest, handleRequest, hversion, hid, serveMethod, hmethod,
    Server.call, hcall, htool, toolName, hexpression]

/-! A line that changes the interpreter gets through every check. -/

theorem exists_call_of_ne {i : Interpreter} {params : Json} (h : (call i params).2 ≠ i) :
    ∃ c expression, Call.decode params = .ok c ∧ c.tool = "calculate" ∧
      c.arguments.expression? = some expression := by
  unfold call at h
  split at h
  · exact (h rfl).elim
  · rename_i c hcall
    split at h
    · exact (h rfl).elim
    · rename_i htool
      split at h
      · exact (h rfl).elim
      · rename_i expression hexpression
        exact ⟨c, expression, hcall, Decidable.not_not.mp htool, hexpression⟩

theorem method_eq_of_ne {i : Interpreter} {method : String} {params : Json}
    (h : (serveMethod i method params).2 ≠ i) :
    method = "tools/call" ∧ (call i params).2 ≠ i := by
  unfold serveMethod at h
  split at h
  · exact (h rfl).elim
  · exact (h rfl).elim
  · exact (h rfl).elim
  · exact ⟨rfl, h⟩
  · exact (h rfl).elim

theorem exists_asked_of_ne {i : Interpreter} {line : String} (h : (handle i line).2 ≠ i) :
    ∃ id expression, asked? line = some (id, expression) := by
  unfold handle at h
  split at h
  · exact (h rfl).elim
  · rename_i message hmessage
    split at h
    · exact (h rfl).elim
    · rename_i request hrequest
      unfold handleRequest at h
      split at h
      · exact (h rfl).elim
      · rename_i hversion
        split at h
        · exact (h rfl).elim
        · rename_i id hid
          obtain ⟨hmethod, hchanged⟩ := method_eq_of_ne h
          obtain ⟨c, expression, hcall, htool, hexpression⟩ := exists_call_of_ne hchanged
          refine ⟨id, expression, asked?_eq_some.mpr ⟨message, request, c, hmessage, hrequest,
            hcall, Decidable.not_not.mp hversion, hid, hmethod, htool, hexpression⟩⟩

/-- A line that does not ask for a calculation leaves the interpreter alone. -/
theorem handle_of_not_asked {line : String} (h : asked? line = none) (i : Interpreter) :
    (handle i line).2 = i := by
  apply Classical.byContradiction
  intro hne
  obtain ⟨id, expression, hasked⟩ := exists_asked_of_ne hne
  rw [h] at hasked
  cases hasked

/-! ## Sessions -/

/-- The expression that a line asks for. -/
def expression? (line : String) : Option String :=
  (asked? line).map Prod.snd

theorem after_handle (i : Interpreter) (lines : List String) :
    after handle i lines = after Interpreter.run i (lines.filterMap expression?) := by
  induction lines generalizing i with
  | nil => rfl
  | cons line lines ih =>
    rw [after_cons, ih]
    cases h : asked? line with
    | none => rw [handle_of_not_asked h, List.filterMap_cons_none (by simp [expression?, h])]
    | some asked =>
      rw [handle_of_asked h, List.filterMap_cons_some (b := asked.2) (by simp [expression?, h])]
      rfl

/-- The result of a tool call holds one text, with a mark whether the calculation failed. -/
def Says (result : Json) (text : String) (failed : Bool) : Prop :=
  ∃ part, result.member? "content" = some (.array [part]) ∧
    part.member? "type" = some (.string "text") ∧
    part.member? "text" = some (.string text) ∧
    result.member? "isError" = some (.bool failed)

theorem says_toolResult (text : String) (failed : Bool) :
    Says (toolResult text failed) text failed :=
  ⟨.object [("text", .string text), ("type", .string "text")], rfl, rfl, rfl, rfl⟩

/-- The result tells an outcome that is displayed as `d`. -/
def Tells (result : Json) (d : String) : Except Failure Value → Prop
  | .ok _ => Says result d false
  | .error _ => Says result ("Error evaluating expression: " ++ d) true

/-- The result tells the outcome of a run. -/
def Reports (result : Json) (outcome : Except Failure Value) : Prop :=
  Tells result (display outcome) outcome

theorem reports_calculation (outcome : Except Failure Value) :
    Reports (calculation outcome) outcome := by
  cases outcome with
  | ok value =>
    rw [calculation, value.text_eq_display]
    exact says_toolResult _ _
  | error failure => exact says_toolResult _ _

/-- **The tool server refines an interpreter, over whole sessions.** The lines that ask for a
calculation are those with the right fields. Behind any lines the server has the bindings of an
interpreter that has run the expressions they ask for, in their order. A line that asks for one is
answered, under its identifier, by a result that tells the outcome of that run; every other line
changes nothing. -/
theorem refines_interpreter (limits : Limits) (lines : List String) :
    (∀ line id expression, asked? line = some (id, expression) ↔ Asks line id expression) ∧
    after handle ⟨limits, ∅⟩ lines =
      after Interpreter.run ⟨limits, ∅⟩ (lines.filterMap expression?) ∧
    ∀ n line, lines[n]? = some line →
      (asked? line = none →
        after handle ⟨limits, ∅⟩ (lines.take (n + 1)) = after handle ⟨limits, ∅⟩ (lines.take n)) ∧
      ∀ id expression, asked? line = some (id, expression) →
        ∃ result i, (trace handle ⟨limits, ∅⟩ lines)[n]? = some (some ⟨id, .ok result⟩, i) ∧
          Reports result ((after Interpreter.run ⟨limits, ∅⟩
            ((lines.take n).filterMap expression?)).run expression).1 := by
  refine ⟨fun _ _ _ => asked?_eq_some_iff_asks, after_handle _ lines, ?_⟩
  intro n line hline
  constructor
  · intro hnone
    rw [after_take_succ _ _ hline, handle_of_not_asked hnone]
  · intro id expression hasked
    refine ⟨_, _, getElem?_trace_eq_some.mpr ⟨line, hline, handle_of_asked hasked _⟩, ?_⟩
    rw [after_handle]
    exact reports_calculation _

/-- The lines of a session: a binding, a line that is no request, and a use of the binding. -/
def bindingLines : List String :=
  [(callMessage "a" "x = 6").compact, (Json.string "a").compact,
    (callMessage "b" "x / (x - 6)").compact]

/-- The line that is no request changes nothing, the others are answered, and the store is that of
the two runs. -/
theorem refines_interpreter_binding :
    after handle ⟨{}, ∅⟩ bindingLines = ⟨{}, (∅ : Store).assign "x" 6⟩ ∧
    after handle ⟨{}, ∅⟩ (bindingLines.take 2) = after handle ⟨{}, ∅⟩ (bindingLines.take 1) ∧
    (∃ result i, (trace handle ⟨{}, ∅⟩ bindingLines)[0]? =
      some (some ⟨.string "a", .ok result⟩, i) ∧ Says result "6" false) ∧
    ∃ result i, (trace handle ⟨{}, ∅⟩ bindingLines)[2]? =
      some (some ⟨.string "b", .ok result⟩, i) ∧
        Says result "Error evaluating expression: Division by zero" true := by
  have hword : asked? (Json.string "a").compact = none := by
    rw [asked?, Json.parse_compact (Json.readBack_string _ "a")]
    rfl
  have hbinding : asked? (callMessage "a" "x = 6").compact = some (.string "a", "x = 6") :=
    asked?_callMessage _ _
  have hdivision : asked? (callMessage "b" "x / (x - 6)").compact =
      some (.string "b", "x / (x - 6)") := asked?_callMessage _ _
  have hsix : Interpreter.run ⟨{}, ∅⟩ "x = 6" =
      (.ok (.int 6), ⟨{}, (∅ : Store).assign "x" 6⟩) := by
    have hparse : Stmt.parse "x = 6" = .ok (.expr (.assign "x" (.number 6))) :=
      toOption_eq_some.mp (by decide +kernel)
    rw [Interpreter.run_of_parse_expr hparse]
    rfl
  have hzero : Interpreter.run ⟨{}, (∅ : Store).assign "x" 6⟩ "x / (x - 6)" =
      (.error (.eval .divisionByZero), ⟨{}, (∅ : Store).assign "x" 6⟩) := by
    have hparse : Stmt.parse "x / (x - 6)" =
        .ok (.expr (.binary .div (.var "x") (.binary .sub (.var "x") (.number 6)))) :=
      toOption_eq_some.mp (by decide +kernel)
    rw [Interpreter.run_of_parse_expr hparse]
    rfl
  obtain ⟨-, hafter, hlines⟩ := refines_interpreter {} bindingLines
  obtain ⟨-, hfirst⟩ := hlines 0 _ rfl
  obtain ⟨hsecond, -⟩ := hlines 1 _ rfl
  obtain ⟨-, hthird⟩ := hlines 2 _ rfl
  obtain ⟨result, i, hanswer, hreports⟩ := hfirst _ _ hbinding
  obtain ⟨result', i', hanswer', hreports'⟩ := hthird _ _ hdivision
  have hall : bindingLines.filterMap expression? = ["x = 6", "x / (x - 6)"] := by
    simp [bindingLines, expression?, hbinding, hword, hdivision]
  have hbefore : (bindingLines.take 2).filterMap expression? = ["x = 6"] := by
    simp [bindingLines, expression?, hbinding, hword]
  rw [hall, after_cons, hsix, after_cons, hzero, after_nil] at hafter
  rw [List.take_zero, List.filterMap_nil, after_nil, hsix] at hreports
  rw [hbefore, after_cons, hsix, after_nil, hzero] at hreports'
  exact ⟨hafter, hsecond hword, ⟨result, i, hanswer, hreports⟩, result', i', hanswer', hreports'⟩

end Server

end Reckon
