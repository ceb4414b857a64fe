import Reckon.CommandLine
import Reckon.Proofs.Spacing
import Reckon.Proofs.ToolCalls

/-!
# Sessions, the tool server and the command line agree

The same texts are typed in a session, sent to the tool server and passed on the command line. The
session drops the blanks at the ends of a line before it runs the line, and takes some lines for
commands; the others run the text as it is. What is dropped shows in the places of tokens alone, and
no message names a place once there are tokens, so all three tell the same of every text that the
session runs at all. What they tell of an outcome is one text, its `display`, with different words
around it.

* `Interpreter.run_trim`: a text and the text without the blanks at its ends.
* `Session.step_of_runnable`: a line of a session, as a run of the text.
* `Server.sends_callMessage`, `CommandLine.passes_evalArguments`: any texts can be sent and passed.
* `CommandLine.evaluate_eq`, `CommandLine.evaluate_take`: texts on the command line, up to the first
  failure.
* `CommandLine.tells_eval`: the command that evaluates texts.
* `front_ends_agree`: all three, step by step.
-/

namespace Reckon

/-! ## Blanks at the ends of a text -/

theorem Blank.exists_trimChars (cs : List Char) :
    ∃ front back, cs = front ++ (trimChars cs ++ back) ∧ (∀ c ∈ front, isBlank c = true) ∧
      ∀ c ∈ back, isBlank c = true := by
  refine ⟨cs.takeWhile isBlank, ((cs.dropWhile isBlank).reverse.takeWhile isBlank).reverse, ?_,
    fun c hc => Token.mem_takeWhile hc, fun c hc => Token.mem_takeWhile (List.mem_reverse.mp hc)⟩
  rw [trimChars, ← List.reverse_append, List.takeWhile_append_dropWhile, List.reverse_reverse,
    List.takeWhile_append_dropWhile]

namespace Token

theorem NamePart.toNat {c : Char} (h : NamePart c) : 48 ≤ c.toNat ∧ c.toNat ≤ 122 := by
  rcases h with h | h | rfl
  · have := h.toNat
    omega
  · have := h.toNat
    omega
  · decide

/-- The blanks of a text over the alphabet separate its tokens. -/
theorem InAlphabet.separator {c : Char} (h : InAlphabet c) (hblank : Blank.isBlank c = true) :
    Separator c := by
  have hrange : c.toNat ≤ 32 ∨ 133 ≤ c.toNat := by
    obtain ⟨r, hr, hle, hge⟩ := Ranges.covers_iff.mp hblank
    simp only [Blank.ranges, List.mem_cons, List.not_mem_nil, or_false] at hr
    rcases hr with rfl | rfl | rfl | rfl | rfl | rfl | rfl | rfl | rfl | rfl
    all_goals
      dsimp only at hle hge
      omega
  rcases h with h | h | h
  · exact h
  · have := h.toNat
    omega
  · obtain ⟨k, hk⟩ := exists_ofSign? h
    have := toNat_of_ofSign? hk
    omega

theorem lexFrom_separators_nil {gap : List Char} (h : ∀ c ∈ gap, Separator c) (offset : Nat) :
    lexFrom offset gap = .ok [endAt (offset + byteLength gap)] := by
  have hgap := lexFrom_separators h offset []
  rw [List.append_nil, lexFrom_nil] at hgap
  exact hgap

/-- Separators at the ends of a text show in the places of its tokens alone. -/
theorem lexFrom_between {front core back : List Char} {tokens : List Token}
    (hfront : ∀ c ∈ front, Separator c) (hcore : ∀ c ∈ core, InAlphabet c)
    (hback : ∀ c ∈ back, Separator c) (h : lexFrom 0 (front ++ (core ++ back)) = .ok tokens) :
    ∃ tokens', lexFrom 0 core = .ok tokens' ∧ tokens'.map unplaced = tokens.map unplaced := by
  obtain ⟨words, hwords, -⟩ := exists_lexes 0 hcore
  have hend : ∀ c, back.head? = some c → ¬ NamePart c := fun c hc =>
    (hback c (List.mem_of_mem_head? hc)).not_namePart
  rw [lexFrom_separators hfront, lexFrom_shift, hwords back hend, lexFrom_separators_nil hback] at h
  cases h
  refine ⟨_, hwords.lexFrom_eq, ?_⟩
  rw [map_unplaced_shift, List.map_append, List.map_append]
  rfl

theorem lex_trim {source : String} {tokens : List Token} (h : lex source = .ok tokens) :
    ∃ tokens', lex (Blank.trim source) = .ok tokens' ∧
      tokens'.map unplaced = tokens.map unplaced := by
  obtain ⟨front, back, hsource, hfront, hback⟩ := Blank.exists_trimChars source.toList
  have hall := inAlphabet_of_lex h
  rw [hsource, List.forall_mem_append, List.forall_mem_append] at hall
  obtain ⟨hallFront, hallCore, hallBack⟩ := hall
  rw [lex, hsource] at h
  rw [lex, Blank.trim, String.toList_ofList]
  exact lexFrom_between (fun c hc => (hallFront c hc).separator (hfront c hc)) hallCore
    (fun c hc => (hallBack c hc).separator (hback c hc)) h

end Token

/-- A text that has tokens is run as the text without the blanks at its ends. -/
theorem Interpreter.run_trim {source : String} {tokens : List Token}
    (h : Token.lex source = .ok tokens) (i : Interpreter) :
    (i.run (Blank.trim source)).2 = (i.run source).2 ∧
      (i.run (Blank.trim source)).1.mapError Failure.message =
        (i.run source).1.mapError Failure.message := by
  obtain ⟨tokens', hlex, hsame⟩ := Token.lex_trim h
  rcases alike_of_mapError_eq (Stmt.parse_unplaced hlex h hsame) with
    ⟨s, hs, hs'⟩ | ⟨failure, failure', hf, hf', halike⟩
  · rw [run, run, hs, hs']
    exact ⟨rfl, rfl⟩
  · rw [run_of_parse_error hf, run_of_parse_error hf']
    have hmessage := congrArg Failure.message halike
    rw [Failure.message_unplaced, Failure.message_unplaced] at hmessage
    exact ⟨rfl, congrArg Except.error hmessage⟩

/-! ## One text -/

/-- A text that a session runs: it has tokens, and it is neither blank nor one of the words that end
a session. -/
structure Runnable (source : String) : Prop where
  lexes : ∃ tokens, Token.lex source = .ok tokens
  notBlank : Blank.isBlankText source = false
  notFarewell : (Blank.trim source).toList.map Char.toLower ≠ "exit".toList ∧
    (Blank.trim source).toList.map Char.toLower ≠ "quit".toList

namespace Runnable

variable {source : String}

theorem trim_ne_empty (h : Runnable source) : Blank.trim source ≠ "" := by
  intro hempty
  obtain ⟨front, back, hsource, hfront, hback⟩ := Blank.exists_trimChars source.toList
  have htrim : Blank.trimChars source.toList = [] := by
    rw [← String.toList_ofList (l := Blank.trimChars source.toList), ← Blank.trim, hempty]
    rfl
  have hblank : Blank.isBlankText source = true := by
    rw [Blank.isBlankText, hsource, htrim, List.nil_append, List.all_append,
      List.all_eq_true.mpr hfront, List.all_eq_true.mpr hback]
    rfl
  rw [h.notBlank] at hblank
  cases hblank

theorem isFarewell_trim (h : Runnable source) : Session.isFarewell (Blank.trim source) = false := by
  rw [Session.isFarewell, beq_eq_false_iff_ne.mpr h.notFarewell.1,
    beq_eq_false_iff_ne.mpr h.notFarewell.2]
  rfl

/-- The commands to the session itself start with a colon, which is foreign to the language. -/
theorem trim_ne_command (h : Runnable source) {command : String} (hcommand : ':' ∈ command.toList) :
    Blank.trim source ≠ command := by
  rintro rfl
  obtain ⟨tokens, hlex⟩ := h.lexes
  obtain ⟨tokens', hlex', -⟩ := Token.lex_trim hlex
  exact absurd (Token.inAlphabet_of_lex hlex' ':' hcommand) (by decide)

end Runnable

/-- A session tells an outcome that is displayed as `d`: an integer behind an equals sign, a drawing
as it is, and what is wrong behind a word. -/
def Session.Prints (text d : String) : Except Failure Value → Prop
  | .ok (.int _) => text = "= " ++ d
  | .ok (.tree _) => text = d
  | .error _ => text = "Error: " ++ d

theorem Session.answer_eq {outcome outcome' : Except Failure Value}
    (h : outcome.mapError Failure.message = outcome'.mapError Failure.message) :
    answer outcome = answer outcome' := by
  rcases alike_of_mapError_eq h with ⟨v, rfl, rfl⟩ | ⟨failure, failure', rfl, rfl, hmessage⟩
  · rfl
  · rw [answer, answer, hmessage]

theorem Session.prints_answer (outcome : Except Failure Value) :
    Prints (answer outcome) (display outcome) outcome := by
  match outcome with
  | .ok (.int n) => rfl
  | .ok (.tree drawing) => rfl
  | .error failure => rfl

/-- A session answers a text by the outcome of its run. -/
theorem Session.step_of_runnable {source : String} (h : Runnable source) (i : Interpreter) :
    step i source = (.print (answer (i.run source).1), (i.run source).2) := by
  obtain ⟨tokens, hlex⟩ := h.lexes
  obtain ⟨hstate, houtcome⟩ := Interpreter.run_trim hlex i
  have hhelp : Blank.trim source ≠ ":help" := h.trim_ne_command (by decide)
  have hh : Blank.trim source ≠ ":h" := h.trim_ne_command (by decide)
  have hvars : Blank.trim source ≠ ":vars" := h.trim_ne_command (by decide)
  have hreset : Blank.trim source ≠ ":reset" := h.trim_ne_command (by decide)
  rw [← hstate, ← answer_eq houtcome]
  simp [step, h.trim_ne_empty, h.isFarewell_trim, hhelp, hh, hvars, hreset]

/-! ## Sessions and servers -/

theorem Session.after_step {sources : List String} (h : ∀ source ∈ sources, Runnable source)
    (i : Interpreter) : after step i sources = after Interpreter.run i sources := by
  induction sources generalizing i with
  | nil => rw [after_nil, after_nil]
  | cons source sources ih =>
    rw [after_cons, after_cons, step_of_runnable (h source List.mem_cons_self),
      ih fun s hs => h s (List.mem_cons_of_mem source hs)]

theorem Interpreter.getElem?_runs {sources : List String} {n : Nat} {source : String}
    (hn : sources[n]? = some source) (i : Interpreter) :
    (i.runs sources)[n]? = some ((after run i (sources.take n)).run source) := by
  rw [runs, getElem?_trace, hn]
  rfl

theorem Session.getElem?_trace_step {sources : List String}
    (h : ∀ source ∈ sources, Runnable source) {n : Nat} {source : String}
    (hn : sources[n]? = some source) (i : Interpreter) :
    (trace step i sources)[n]? =
      some (.print (answer ((after Interpreter.run i (sources.take n)).run source).1),
        ((after Interpreter.run i (sources.take n)).run source).2) := by
  have hfront : ∀ s ∈ sources.take n, Runnable s := fun s hs => h s (List.mem_of_mem_take hs)
  rw [getElem?_trace, hn, after_step hfront, Option.map_some,
    step_of_runnable (h source (List.mem_of_getElem? hn))]

namespace Server

/-- The lines ask for the calculation of the texts, one after the other. -/
def Sends (lines sources : List String) : Prop :=
  lines.map expression? = sources.map some

variable {lines sources : List String}

theorem Sends.filterMap (h : Sends lines sources) :
    lines.filterMap expression? = sources := by
  have hmap := congrArg (List.filterMap id) h
  rw [List.filterMap_map, List.filterMap_map] at hmap
  simpa using hmap

theorem Sends.take (h : Sends lines sources) (n : Nat) :
    Sends (lines.take n) (sources.take n) := by
  rw [Sends, List.map_take, List.map_take, h]

theorem Sends.exists_asked (h : Sends lines sources) {n : Nat} {source : String}
    (hn : sources[n]? = some source) :
    ∃ line id, lines[n]? = some line ∧ asked? line = some (id, source) := by
  have hline : (lines.map expression?)[n]? = some (some source) := by
    rw [h, List.getElem?_map, hn]
    rfl
  rw [List.getElem?_map, Option.map_eq_some_iff] at hline
  obtain ⟨line, hline, hexpression⟩ := hline
  obtain ⟨⟨id, expression⟩, hasked, rfl⟩ := Option.map_eq_some_iff.mp hexpression
  exact ⟨line, id, hline, hasked⟩

theorem Sends.getElem?_trace_handle (h : Sends lines sources) {n : Nat} {source : String}
    (hn : sources[n]? = some source) (i : Interpreter) :
    ∃ id, (trace handle i lines)[n]? =
      some (some ⟨id, .ok (calculation ((after Interpreter.run i (sources.take n)).run source).1)⟩,
        ((after Interpreter.run i (sources.take n)).run source).2) := by
  obtain ⟨line, id, hline, hasked⟩ := h.exists_asked hn
  refine ⟨id, ?_⟩
  rw [getElem?_trace, hline, after_handle, (h.take n).filterMap, Option.map_some,
    handle_of_asked hasked]

theorem sends_callMessage (sources : List String) :
    Sends (sources.map fun source => (callMessage "0" source).compact) sources := by
  rw [Sends, List.map_map]
  apply List.map_congr_left
  intro source _
  simp [expression?, asked?_callMessage]

end Server

/-! ## The command line -/

namespace CommandLine

/-- What the evaluation of texts with these outcomes comes to. The displays of the values in front
of the first failure are printed, each with a newline behind it, and the program ends with the
failure if there is one. -/
def Tells (o : Outcome) (outcomes : List (Except Failure Value)) : Prop :=
  ∃ values : List Value,
    o.output = String.join (values.map fun v => display (.ok v) ++ "\n") ∧
    (outcomes = values.map .ok ∧ o.problem? = none ∧ o.exit = 0 ∨
      ∃ failure later, outcomes = values.map .ok ++ .error failure :: later ∧
        o.problem? = some (.expression failure) ∧ o.exit = 1)

theorem eq_of_map_ok_append {values values' : List Value} {failure failure' : Failure}
    {later later' : List (Except Failure Value)}
    (h : values.map .ok ++ .error failure :: later =
      values'.map .ok ++ .error failure' :: later') : values = values' := by
  induction values generalizing values' with
  | nil =>
    cases values' with
    | nil => rfl
    | cons => cases h
  | cons v values ih =>
    cases values' with
    | nil => cases h
    | cons v' values' =>
      rw [List.map_cons, List.map_cons, List.cons_append, List.cons_append, List.cons.injEq] at h
      rw [Except.ok.inj h.1, ih h.2]

/-- What is told is settled by the outcomes up to the first failure. -/
theorem Tells.of_failure {o : Outcome} {values : List Value} {failure : Failure}
    {later : List (Except Failure Value)}
    (h : Tells o (values.map .ok ++ .error failure :: later)) :
    o.output = String.join (values.map fun v => display (.ok v) ++ "\n") ∧ o.exit = 1 := by
  obtain ⟨values', houtput, ⟨houtcomes, -⟩ | ⟨_, _, houtcomes, -, hexit⟩⟩ := h
  · have hmem : Except.error failure ∈ values'.map Except.ok := by
      rw [← houtcomes]
      exact List.mem_append_right _ List.mem_cons_self
    obtain ⟨v, -, hv⟩ := List.mem_map.mp hmem
    cases hv
  · rw [eq_of_map_ok_append houtcomes]
    exact ⟨houtput, hexit⟩

theorem evaluate_error {i i' : Interpreter} {source : String} {failure : Failure}
    (h : i.run source = (.error failure, i')) (sources : List String) :
    evaluate i (source :: sources) = ([], some failure) := by
  rw [evaluate, h]

theorem evaluate_ok {i i' : Interpreter} {source : String} {value : Value}
    (h : i.run source = (.ok value, i')) (sources : List String) :
    evaluate i (source :: sources) =
      (value :: (evaluate i' sources).1, (evaluate i' sources).2) := by
  rw [evaluate, h]

/-- Texts are run in turn up to the first failure. -/
theorem evaluate_eq (i : Interpreter) (sources : List String) :
    (∃ values, evaluate i sources = (values, none) ∧
      (i.runs sources).map Prod.fst = values.map .ok) ∨
    ∃ values failure later, evaluate i sources = (values, some failure) ∧
      (i.runs sources).map Prod.fst = values.map .ok ++ .error failure :: later := by
  induction sources generalizing i with
  | nil => exact .inl ⟨[], rfl, rfl⟩
  | cons source sources ih =>
    have hruns : (i.runs (source :: sources)).map Prod.fst =
        (i.run source).1 :: ((i.run source).2.runs sources).map Prod.fst := rfl
    rcases hrun : i.run source with ⟨failure | value, i'⟩
    · rw [evaluate_error hrun, hruns, hrun]
      exact .inr ⟨[], failure, _, rfl, rfl⟩
    · rw [evaluate_ok hrun, hruns, hrun]
      rcases ih i' with ⟨values, hvalues, houtcomes⟩ | ⟨values, failure, later, hvalues, houtcomes⟩
      · rw [hvalues, houtcomes]
        exact .inl ⟨value :: values, rfl, rfl⟩
      · rw [hvalues, houtcomes]
        exact .inr ⟨value :: values, failure, later, rfl, rfl⟩

/-- What stands behind a failure is not run. -/
theorem evaluate_take {i i' : Interpreter} {sources : List String} {n : Nat} {failure : Failure}
    (h : (i.runs sources)[n]? = some (.error failure, i')) (more : List String) :
    evaluate i (sources.take (n + 1) ++ more) = evaluate i sources := by
  induction sources generalizing i n with
  | nil => cases h
  | cons source sources ih =>
    rw [List.take_succ_cons, List.cons_append]
    rcases hrun : i.run source with ⟨failure' | value, i₁⟩
    · rw [evaluate_error hrun, evaluate_error hrun]
    · rw [evaluate_ok hrun, evaluate_ok hrun]
      cases n with
      | zero =>
        have hhead : i.run source = (.error failure, i') := Option.some.inj h
        rw [hrun] at hhead
        cases hhead
      | succ n =>
        have htail : ((i.run source).2.runs sources)[n]? = some (.error failure, i') := h
        rw [hrun] at htail
        rw [ih htail]

theorem run_eval (settings : Settings) (input : List UInt8) (sources : List String) :
    Command.run settings input (.eval sources) =
      { output := String.join
          ((evaluate ⟨settings.limits, ∅⟩ sources).1.map fun v => display (.ok v) ++ "\n")
        problem? := (evaluate ⟨settings.limits, ∅⟩ sources).2.map .expression } := by
  have hlines : (fun v : Value => line v.text) = fun v => display (.ok v) ++ "\n" := by
    funext v
    rw [line, v.text_eq_display]
  rw [Command.run, hlines]

/-- The command that evaluates texts, whatever texts these are. -/
theorem tells_eval (settings : Settings) (input : List UInt8) (sources : List String) :
    Tells (Command.run settings input (.eval sources))
      ((Interpreter.runs ⟨settings.limits, ∅⟩ sources).map Prod.fst) := by
  rw [run_eval]
  rcases evaluate_eq ⟨settings.limits, ∅⟩ sources with
    ⟨values, hvalues, houtcomes⟩ | ⟨values, failure, later, hvalues, houtcomes⟩
  · rw [hvalues]
    exact ⟨values, rfl, .inl ⟨houtcomes, rfl, rfl⟩⟩
  · rw [hvalues]
    exact ⟨values, rfl, .inr ⟨failure, later, houtcomes, rfl, rfl⟩⟩

theorem run_eval_take {i : Interpreter} {sources : List String} {n : Nat} {failure : Failure}
    (settings : Settings)
    (h : (Interpreter.runs ⟨settings.limits, ∅⟩ sources)[n]? = some (.error failure, i))
    (input : List UInt8) (more : List String) :
    Command.run settings input (.eval (sources.take (n + 1) ++ more)) =
      Command.run settings input (.eval sources) := by
  rw [run_eval, run_eval, evaluate_take h]

/-! ### Arguments -/

/-- The arguments have the texts evaluated under these bounds, where `read` gives the texts of
files. -/
def Passes (read : String → Option String) (args : List String) (limits : Limits)
    (sources : List String) : Prop :=
  ∃ options settings, Invocation.ofTexts args = .ok ⟨options, .eval sources⟩ ∧
    Invocation.settings ⟨options, .eval sources⟩ read = .ok settings ∧ settings.limits = limits

/-- The settings beside the bounds do not show in an evaluation. -/
theorem run_eval_congr {settings settings' : Settings} (h : settings.limits = settings'.limits)
    (input : List UInt8) (sources : List String) :
    Command.run settings input (.eval sources) = Command.run settings' input (.eval sources) := by
  rw [run_eval, run_eval, h]

theorem run_of_passes {read : String → Option String} {args : List String} {limits : Limits}
    {sources : List String} (h : Passes read args limits sources) (input : List UInt8) :
    run read input args = Command.run { limits } input (.eval sources) := by
  obtain ⟨options, settings, hargs, hsettings, rfl⟩ := h
  rw [run, hargs]
  simp only [hsettings]
  exact run_eval_congr rfl input sources

/-- The digits of a number have no sign in front. -/
theorem exists_digits (n : Nat) :
    ∃ d ds, Decimal.digits n = d :: ds ∧ d ≠ '+' ∧ d ≠ '-' := by
  obtain ⟨d, ds, hdigits⟩ := List.exists_cons_of_ne_nil (Decimal.digits_ne_nil n)
  have hd : d.isDigit = true := Decimal.isDigit_of_mem_digits (hdigits ▸ List.mem_cons_self)
  refine ⟨d, ds, hdigits, ?_, ?_⟩
  · rintro rfl
    exact absurd hd (by decide)
  · rintro rfl
    exact absurd hd (by decide)

theorem number?_natText {n bound : Nat} (h : n < bound) :
    Options.number? bound (Decimal.natText n) = some n := by
  obtain ⟨d, ds, hdigits, hplus, hminus⟩ := exists_digits n
  have hvalue := Decimal.natOf?_digits n
  rw [hdigits] at hvalue
  rw [Options.number?, Decimal.natText, String.toList_ofList, hdigits]
  simp [hvalue, h, hplus, hminus]

theorem isDashed_natText (n : Nat) : Argument.isDashed (Decimal.natText n) = false := by
  obtain ⟨d, ds, hdigits, -, hminus⟩ := exists_digits n
  rw [Argument.isDashed, Decimal.natText, String.toList_ofList, hdigits]
  cases ds <;> simp [hminus]

/-- Arguments that have texts evaluated under given bounds. -/
def evalArguments (limits : Limits) (sources : List String) : List String :=
  "--max-factorial" :: Decimal.natText limits.maxFactorial.toNat ::
    "--max-exponent" :: Decimal.natText limits.maxExponent.toNat :: "eval" :: "--" :: sources

theorem ofTexts_evalArguments (limits : Limits) (sources : List String) :
    Argument.ofTexts (evalArguments limits sources) =
      .option .maxFactorial (Decimal.natText limits.maxFactorial.toNat) ::
        .option .maxExponent (Decimal.natText limits.maxExponent.toNat) :: .word "eval" ::
          .dashes :: sources.map .word := by
  have hfactorial : Argument.ofText "--max-factorial" = ([], some .maxFactorial) := rfl
  have hexponent : Argument.ofText "--max-exponent" = ([], some .maxExponent) := rfl
  have heval : Argument.ofText "eval" = ([.word "eval"], none) := rfl
  simp [evalArguments, Argument.ofTexts, hfactorial, hexponent, heval, isDashed_natText]

theorem afterName_words (o : Options) (count : Nat) (sources : List String) :
    Invocation.afterName "eval" count o (sources.map .word) = .ok (o, sources) := by
  induction sources generalizing count with
  | nil => rfl
  | cons source sources ih =>
    rw [List.map_cons, Invocation.afterName, ih]
    rfl

theorem addOption_maxFactorial {o : Options} (h : o.maxFactorial? = none) (n : UInt64) :
    Invocation.addOption o (.option .maxFactorial (Decimal.natText n.toNat)) =
      .ok { o with maxFactorial? := some n } := by
  have hhead : (Decimal.natText n.toNat).toList.head? ≠ some '-' := by
    obtain ⟨d, ds, hdigits, -, hminus⟩ := exists_digits n.toNat
    rw [Decimal.natText, String.toList_ofList, hdigits]
    simpa using hminus
  simp [Invocation.addOption, Options.set?, h, hhead, number?_natText n.toNat_lt_size]

theorem addOption_maxExponent {o : Options} (h : o.maxExponent? = none) (n : UInt32) :
    Invocation.addOption o (.option .maxExponent (Decimal.natText n.toNat)) =
      .ok { o with maxExponent? := some n } := by
  simp [Invocation.addOption, Options.set?, h, number?_natText n.toNat_lt_size]

theorem ofArguments_option {o o' : Options} {parameter : Parameter} {value : String}
    (h : Invocation.addOption o (.option parameter value) = .ok o') (rest : List Argument) :
    Invocation.ofArguments o (.option parameter value :: rest) =
      Invocation.ofArguments o' rest := by
  rw [Invocation.ofArguments.eq_def]
  simp only [h, bind, Except.bind]

theorem ofArguments_eval (o : Options) (source : String) (sources : List String) :
    Invocation.ofArguments o (.word "eval" :: .dashes :: (source :: sources).map .word) =
      .ok ⟨({} : Options).orElse o, .eval (source :: sources)⟩ := by
  have hhelp : "eval" ≠ "help" := by decide
  have hname : "eval" ∈ Command.names := by decide
  rw [Invocation.ofArguments, if_neg hhelp, if_pos hname, Invocation.afterName, afterName_words]
  rfl

/-- Any texts can be passed, under any bounds. -/
theorem passes_evalArguments {sources : List String} (hne : sources ≠ []) (limits : Limits)
    (read : String → Option String) :
    Passes read (evalArguments limits sources) limits sources := by
  obtain ⟨source, rest, rfl⟩ := List.exists_cons_of_ne_nil hne
  refine ⟨{ maxFactorial? := some limits.maxFactorial, maxExponent? := some limits.maxExponent },
    { limits }, ?_, rfl, rfl⟩
  rw [Invocation.ofTexts, ofTexts_evalArguments, ofArguments_option (addOption_maxFactorial rfl _),
    ofArguments_option (addOption_maxExponent rfl _), ofArguments_eval]
  rfl

end CommandLine

/-! ## All three -/

/-- **A session, the tool server and the command line agree**, under any bounds and on any texts
that a session runs. Every step has one outcome with one display: the session prints it and the
server reports it, with the same interpreter behind it. The command line prints the displays of the
values in front of the first failure, whatever texts stand behind that, and ends with 0 or, if there
is a failure, with it and 1. This holds of all arguments that pass the texts, and of the command
that evaluates texts on any texts whatever, also on those that no session runs. There are messages
that send the texts and, if there are any texts, arguments that pass them. -/
theorem front_ends_agree (limits : Limits) (sources : List String)
    (h : ∀ source ∈ sources, Runnable source) :
    (∀ (n : Nat) (source : String), sources[n]? = some source →
      ∃ (outcome : Except Failure Value) (i : Interpreter) (d text : String),
        (Interpreter.runs ⟨limits, ∅⟩ sources)[n]? = some (outcome, i) ∧ d = display outcome ∧
        (trace Session.step ⟨limits, ∅⟩ sources)[n]? = some (.print text, i) ∧
        Session.Prints text d outcome ∧
        ∀ lines, Server.Sends lines sources → ∃ (id result : Json),
          (trace Server.handle ⟨limits, ∅⟩ lines)[n]? = some (some ⟨id, .ok result⟩, i) ∧
            Server.Tells result d outcome) ∧
    (∀ texts settings input, settings.limits = limits →
      CommandLine.Tells (CommandLine.Command.run settings input (.eval texts))
        ((Interpreter.runs ⟨limits, ∅⟩ texts).map Prod.fst) ∧
      ∀ n failure i more,
        (Interpreter.runs ⟨limits, ∅⟩ texts)[n]? = some (.error failure, i) →
        CommandLine.Command.run settings input (.eval (texts.take (n + 1) ++ more)) =
          CommandLine.Command.run settings input (.eval texts)) ∧
    (∀ read input args, CommandLine.Passes read args limits sources →
      CommandLine.Tells (CommandLine.run read input args)
        ((Interpreter.runs ⟨limits, ∅⟩ sources).map Prod.fst) ∧
      ∀ n failure i more args',
        (Interpreter.runs ⟨limits, ∅⟩ sources)[n]? = some (.error failure, i) →
        CommandLine.Passes read args' limits (sources.take (n + 1) ++ more) →
        CommandLine.run read input args' = CommandLine.run read input args) ∧
    (∃ lines, Server.Sends lines sources) ∧
    (sources ≠ [] → ∀ read, ∃ args, CommandLine.Passes read args limits sources) := by
  refine ⟨?_, ?_, ?_, ⟨_, Server.sends_callMessage sources⟩,
    fun hne read => ⟨_, CommandLine.passes_evalArguments hne limits read⟩⟩
  · intro n source hn
    refine ⟨_, _, _, _, Interpreter.getElem?_runs hn _, rfl, Session.getElem?_trace_step h hn _,
      Session.prints_answer _, fun lines hlines => ?_⟩
    obtain ⟨id, hanswer⟩ := hlines.getElem?_trace_handle hn ⟨limits, ∅⟩
    exact ⟨id, _, hanswer, Server.reports_calculation _⟩
  · rintro texts settings input rfl
    exact ⟨CommandLine.tells_eval settings input texts,
      fun n failure i more hn => CommandLine.run_eval_take settings hn input more⟩
  · intro read input args hargs
    rw [CommandLine.run_of_passes hargs]
    refine ⟨CommandLine.tells_eval { limits } input sources,
      fun n failure i more args' hn hargs' => ?_⟩
    rw [CommandLine.run_of_passes hargs']
    exact CommandLine.run_eval_take { limits } hn input more

/-- Texts with a value, a drawing and a failure. -/
def divisionTexts : List String :=
  [" x = 6\t", "render(-x)", "\nx / (x - 6)"]

theorem runs_divisionTexts :
    Interpreter.runs ⟨{}, ∅⟩ divisionTexts =
      [(.ok (.int 6), ⟨{}, (∅ : Store).assign "x" 6⟩),
        (.ok (.tree "└── UNARY_OP(-)\n    └── VARIABLE(x)"), ⟨{}, (∅ : Store).assign "x" 6⟩),
        (.error (.eval .divisionByZero), ⟨{}, (∅ : Store).assign "x" 6⟩)] := by
  have hassign : Stmt.parse " x = 6\t" = .ok (.expr (.assign "x" (.number 6))) :=
    toOption_eq_some.mp (by decide +kernel)
  have hdrawing : Stmt.parse "render(-x)" = .ok (.render (.unary .minus (.var "x"))) :=
    toOption_eq_some.mp (by decide +kernel)
  have hquotient : Stmt.parse "\nx / (x - 6)" =
      .ok (.expr (.binary .div (.var "x") (.binary .sub (.var "x") (.number 6)))) :=
    toOption_eq_some.mp (by decide +kernel)
  rw [Interpreter.runs, divisionTexts, trace, trace, trace, trace,
    Interpreter.run_of_parse_expr hassign, Interpreter.run_of_parse_render hdrawing,
    Interpreter.run_of_parse_expr hquotient]
  rfl

theorem runnable_divisionTexts : ∀ source ∈ divisionTexts, Runnable source := by
  have hlexes : ∀ source ∈ divisionTexts, (Token.lex source).toOption.isSome = true := by
    decide +kernel
  have hwords : ∀ source ∈ divisionTexts, Blank.isBlankText source = false ∧
      (Blank.trim source).toList.map Char.toLower ≠ "exit".toList ∧
      (Blank.trim source).toList.map Char.toLower ≠ "quit".toList := by
    decide +kernel
  intro source hsource
  obtain ⟨tokens, htokens⟩ := Option.isSome_iff_exists.mp (hlexes source hsource)
  obtain ⟨hblank, hfarewell⟩ := hwords source hsource
  exact ⟨⟨tokens, toOption_eq_some.mp htokens⟩, hblank, hfarewell⟩

/-- All three tell of the value and the failure, and the server and the command line of the drawing
in the same words. -/
theorem front_ends_agree_zero_divisor :
    (∀ source ∈ divisionTexts, Runnable source) ∧
    (∃ i, (trace Session.step ⟨{}, ∅⟩ divisionTexts)[0]? = some (.print "= 6", i)) ∧
    (∃ i, (trace Session.step ⟨{}, ∅⟩ divisionTexts)[2]? =
      some (.print "Error: Division by zero", i)) ∧
    (∃ lines, Server.Sends lines divisionTexts ∧
      (∃ id result i, (trace Server.handle ⟨{}, ∅⟩ lines)[0]? = some (some ⟨id, .ok result⟩, i) ∧
        Server.Says result "6" false) ∧
      (∃ id result i, (trace Server.handle ⟨{}, ∅⟩ lines)[1]? = some (some ⟨id, .ok result⟩, i) ∧
        Server.Says result "└── UNARY_OP(-)\n    └── VARIABLE(x)" false) ∧
      ∃ id result i, (trace Server.handle ⟨{}, ∅⟩ lines)[2]? = some (some ⟨id, .ok result⟩, i) ∧
        Server.Says result "Error evaluating expression: Division by zero" true) ∧
    (CommandLine.run (fun _ => none) [] ("eval" :: divisionTexts)).output =
      "6\n└── UNARY_OP(-)\n    └── VARIABLE(x)\n" ∧
    (CommandLine.run (fun _ => none) [] ("eval" :: divisionTexts)).exit = 1 := by
  obtain ⟨hsteps, -, hargs, ⟨lines, hlines⟩, -⟩ :=
    front_ends_agree {} divisionTexts runnable_divisionTexts
  rw [runs_divisionTexts] at hsteps hargs
  obtain ⟨_, _, _, _, hrun₀, rfl, hsession₀, hprints₀, hserver₀⟩ := hsteps 0 _ rfl
  obtain ⟨_, _, _, _, hrun₁, rfl, -, -, hserver₁⟩ := hsteps 1 _ rfl
  obtain ⟨_, _, _, _, hrun₂, rfl, hsession₂, hprints₂, hserver₂⟩ := hsteps 2 _ rfl
  cases hrun₀
  cases hrun₁
  cases hrun₂
  obtain ⟨_, _, hanswer₀, htells₀⟩ := hserver₀ lines hlines
  obtain ⟨_, _, hanswer₁, htells₁⟩ := hserver₁ lines hlines
  obtain ⟨_, _, hanswer₂, htells₂⟩ := hserver₂ lines hlines
  have hpasses : CommandLine.Passes (fun _ => none) ("eval" :: divisionTexts) {} divisionTexts :=
    ⟨{}, {}, rfl, rfl, rfl⟩
  have htold : CommandLine.Tells _
      ([.int 6, .tree "└── UNARY_OP(-)\n    └── VARIABLE(x)"].map .ok ++
        .error (.eval .divisionByZero) :: []) := (hargs _ [] _ hpasses).1
  exact ⟨runnable_divisionTexts, ⟨_, hprints₀ ▸ hsession₀⟩, ⟨_, hprints₂ ▸ hsession₂⟩,
    ⟨lines, hlines, ⟨_, _, _, hanswer₀, htells₀⟩, ⟨_, _, _, hanswer₁, htells₁⟩,
      ⟨_, _, _, hanswer₂, htells₂⟩⟩, htold.of_failure⟩

end Reckon
