import Formula.CommandLine
import Formula.Proofs.CommandLine.Sources
import Mathlib.Data.List.Induction

/-!
# Lines are run apart

A run without a source reads one source after the other, from every line of its
input that is not blank. What one line leaves does not depend on the lines
before it, so such a run leaves what the runs leave that are given these sources
one by one, in the order of the lines. What the runs work with is set up before
any source is read, and a fault in it ends every run alike.
-/

namespace Formula.CommandLine

/-! ## Lines of a text -/

/-- A line without the carriage return at its end, if there is one. -/
def withoutReturn (line : List Char) : List Char :=
  if line.getLast? = some '\r' then line.dropLast else line

/-- The lines of a text. Each ends with a line feed, or with the text; a
carriage return before the line feed is no part of the line. -/
inductive HasLines : List Char → List String → Prop
  | none : HasLines [] []
  | last {line : List Char} (filled : line ≠ []) (unended : '\n' ∉ line) :
      HasLines line [String.ofList line]
  | ended {line rest : List Char} {lines : List String}
      (unended : '\n' ∉ line) (follow : HasLines rest lines) :
      HasLines (line ++ '\n' :: rest)
        (String.ofList (withoutReturn line) :: lines)

theorem exists_hasLines (text : List Char) : ∃ lines, HasLines text lines := by
  induction length : text.length using Nat.strongRecOn generalizing text with
  | ind count inductionHypothesis =>
      subst length
      by_cases isEnded : '\n' ∈ text
      · obtain ⟨line, rest, rfl, unended⟩ := List.eq_append_cons_of_mem isEnded
        have shorter : rest.length < (line ++ '\n' :: rest).length := by
          rw [List.length_append, List.length_cons]
          omega
        obtain ⟨lines, follow⟩ := inductionHypothesis _ shorter rest rfl
        exact ⟨_, .ended unended follow⟩
      · cases text with
        | nil =>
            exact ⟨_, .none⟩
        | cons char rest =>
            exact ⟨_, .last (List.cons_ne_nil char rest) isEnded⟩

/-- The characters of a line are read up to its end. -/
theorem linesFrom_append {line : List Char} (unended : '\n' ∉ line)
    (before : List String) (read rest : List Char) :
    linesFrom before read (line ++ rest) =
      linesFrom before (line.reverse ++ read) rest := by
  induction line generalizing read with
  | nil =>
      rfl
  | cons char line inductionHypothesis =>
      have notEnd : char ≠ '\n' := by
        rintro rfl
        exact unended List.mem_cons_self
      have unendedRest : '\n' ∉ line :=
        fun isEnded => unended (List.mem_cons_of_mem char isEnded)
      rw [List.cons_append, linesFrom, inductionHypothesis unendedRest,
        List.reverse_cons, List.append_assoc]
      · rfl
      · exact notEnd

theorem linesFrom_newline (before : List String) (line rest : List Char) :
    linesFrom before line.reverse ('\n' :: rest) =
      linesFrom (String.ofList (withoutReturn line) :: before) [] rest := by
  induction line using List.reverseRecOn with
  | nil =>
      rfl
  | append_singleton start last =>
      rw [List.reverse_append, withoutReturn, List.getLast?_concat]
      by_cases isReturn : last = '\r'
      · subst isReturn
        simp [linesFrom]
      · simp [linesFrom, isReturn]

/-- The lines of a text are what it is cut into. -/
theorem HasLines.linesFrom_eq {text : List Char} {lines : List String}
    (has : HasLines text lines) (before : List String) :
    linesFrom before [] text = before.reverse ++ lines := by
  induction has generalizing before with
  | none =>
      exact (List.append_nil _).symm
  | @last line filled unended =>
      have readWhole := linesFrom_append unended before [] []
      rw [List.append_nil, List.append_nil] at readWhole
      have isRead : line.reverse.isEmpty = false := by
        rw [List.isEmpty_reverse]
        exact List.isEmpty_eq_false_iff.2 filled
      rw [readWhole, linesFrom, isRead, List.reverse_reverse,
        List.reverse_cons]
      rfl
  | @ended line rest lines unended _ inductionHypothesis =>
      rw [linesFrom_append unended, List.append_nil, linesFrom_newline,
        inductionHypothesis, List.reverse_cons, List.append_assoc]
      rfl

theorem existsUnique_hasLines (text : List Char) :
    ∃! lines, HasLines text lines := by
  obtain ⟨lines, has⟩ := exists_hasLines text
  refine ⟨lines, has, fun other hasOther => ?_⟩
  exact (hasOther.linesFrom_eq []).symm.trans (has.linesFrom_eq [])

theorem HasLines.linesOf_eq {input : String} {lines : List String}
    (has : HasLines input.toList lines) : linesOf input = lines := by
  rw [linesOf, has.linesFrom_eq]
  rfl

/-! ## Setting up -/

/-- The language of the sources of a run. -/
def Invocation.language (invocation : Invocation) : Language :=
  ⟨.standard, invocation.limit⟩

/-- Some of what a run works with cannot be set up: the source of a variable
has no value, or a local variable cannot be declared after those before it. -/
def Invocation.CannotBeSetUp (invocation : Invocation) : Prop :=
  match invocation.task with
  | .evaluate bindings =>
      ∃ binding ∈ bindings, ∃ error,
        (invocation.language.evaluate (fun _ _ => none) .empty binding.2).1 =
          .error error
  | .compile locals =>
      ∃ before declared after map error,
        locals = before ++ declared :: after ∧
          Session.declareAll .empty before = .ok map ∧
            (map.declare declared.1 declared.2).1 = .error error
  | .parse => False

namespace Session

theorem exists_bindAll_eq_error_iff {language : Language}
    {literals : List (String × String)} :
    ∀ {bindings : Variables},
      (∃ fault, bindAll language bindings literals = .error fault) ↔
        ∃ binding ∈ literals, ∃ error,
          (language.evaluate (fun _ _ => none) .empty binding.2).1 =
            .error error := by
  induction literals with
  | nil =>
      simp only [bindAll, reduceCtorEq, exists_false, List.not_mem_nil,
        false_and, implies_true]
  | cons first rest inductionHypothesis =>
      intro bindings
      obtain ⟨name, literal⟩ := first
      cases evaluated :
          (language.evaluate (fun _ _ => none) .empty literal).1 with
      | ok value =>
          have bound : bindAll language bindings ((name, literal) :: rest) =
              bindAll language (bindings.insert name (.constant value))
                rest := by
            rw [bindAll, evaluated]
          rw [bound, inductionHypothesis]
          simp only [List.mem_cons, exists_eq_or_imp, evaluated, reduceCtorEq,
            exists_false, false_or]
      | error error =>
          have failed : bindAll language bindings ((name, literal) :: rest) =
              .error (.binding name error) := by
            rw [bindAll, evaluated]
          exact iff_of_true ⟨_, failed⟩
            ⟨(name, literal), List.mem_cons_self, error, evaluated⟩

theorem exists_declareAll_eq_error_iff
    {declarations : List (String × StaticType)} :
    ∀ {locals : LocalMap},
      (∃ fault, declareAll locals declarations = .error fault) ↔
        ∃ before declared after map error,
          declarations = before ++ declared :: after ∧
            declareAll locals before = .ok map ∧
              (map.declare declared.1 declared.2).1 = .error error := by
  induction declarations with
  | nil =>
      intro locals
      simp only [declareAll, reduceCtorEq, exists_false, List.nil_eq,
        List.append_eq_nil_iff, List.cons_ne_nil, and_false, false_and]
  | cons first rest inductionHypothesis =>
      intro locals
      obtain ⟨name, type⟩ := first
      rcases declared : locals.declare name type with ⟨error | slot, next⟩
      · refine iff_of_true ⟨.declaration name error, ?_⟩
          ⟨[], (name, type), rest, locals, error, rfl, rfl, ?_⟩
        · rw [declareAll, declared]
        · rw [declared]
      · have goesOn (more : List (String × StaticType)) :
            declareAll locals ((name, type) :: more) =
              declareAll next more := by
          rw [declareAll, declared]
        rw [goesOn, inductionHypothesis]
        constructor
        · rintro ⟨before, failing, after, map, error, rfl, isMap, fails⟩
          exact ⟨(name, type) :: before, failing, after, map, error, rfl,
            (goesOn before).trans isMap, fails⟩
        · rintro ⟨before, failing, after, map, error, isSplit, isMap, fails⟩
          cases before with
          | nil =>
              cases isSplit
              cases isMap
              rw [declared] at fails
              cases fails
          | cons _ before =>
              cases isSplit
              exact ⟨before, failing, after, map, error, rfl,
                (goesOn before).symm.trans isMap, fails⟩

theorem exists_map_eq_error_iff {ε α β : Type} (build : α → β)
    (result : Except ε α) :
    (∃ fault, result.map build = .error fault) ↔
      ∃ fault, result = .error fault := by
  cases result with
  | ok value =>
      simp only [Except.map, reduceCtorEq]
  | error fault =>
      exact iff_of_true ⟨fault, rfl⟩ ⟨fault, rfl⟩

theorem exists_setUp_eq_error_iff (invocation : Invocation) :
    (∃ fault, setUp invocation = .error fault) ↔
      invocation.CannotBeSetUp := by
  rw [Invocation.CannotBeSetUp, setUp]
  cases invocation.task with
  | evaluate bindings =>
      exact (exists_map_eq_error_iff _ _).trans exists_bindAll_eq_error_iff
  | compile locals =>
      exact (exists_map_eq_error_iff _ _).trans exists_declareAll_eq_error_iff
  | parse =>
      simp only [reduceCtorEq, exists_false]

end Session

/-! ## One line after the other -/

namespace Report

theorem append_empty (report : Report) : report.append .empty = report := by
  obtain ⟨succeeded, output, complaints⟩ := report
  simp [append, empty]

theorem empty_append (report : Report) :
    Report.empty.append report = report := by
  simp [append, empty]

theorem append_assoc (report more last : Report) :
    (report.append more).append last = report.append (more.append last) := by
  simp [append, Bool.and_assoc, String.append_assoc]

theorem outcome_status_eq_zero_iff (report : Report) :
    report.outcome.status = 0 ↔ report.succeeded := by
  cases isSucceeded : report.succeeded <;> simp [outcome, isSucceeded]

end Report

namespace Session

variable (session : Session) (task : Task)

/-- What a line leaves stands behind what was left before it, and is what it
leaves alone. -/
theorem runLine_eq_append (report : Report) (line : String) :
    session.runLine task report line =
      report.append (session.runLine task .empty line) := by
  by_cases isBlank : isBlankText line.toList
  · rw [runLine, runLine, if_pos isBlank, if_pos isBlank, report.append_empty]
  · rw [runLine, runLine, if_neg isBlank, if_neg isBlank, Report.empty_append]

theorem foldl_runLine (lines : List String) (report : Report) :
    lines.foldl (session.runLine task) report =
      report.append (session.runLines task lines) := by
  induction lines generalizing report with
  | nil =>
      exact report.append_empty.symm
  | cons line rest inductionHypothesis =>
      have runRest : session.runLines task (line :: rest) =
          (session.runLine task .empty line).append
            (session.runLines task rest) :=
        inductionHypothesis _
      rw [List.foldl_cons, inductionHypothesis, runRest,
        session.runLine_eq_append task report line, Report.append_assoc]

theorem runLines_cons (line : String) (rest : List String) :
    session.runLines task (line :: rest) =
      (session.runLine task .empty line).append (session.runLines task rest) :=
  session.foldl_runLine task rest _

/-- Lines leave what the sources in them leave one by one. -/
theorem runLines_eq (lines : List String) :
    let reports := (lines.filter fun line => !isBlankText line.toList).map
      (session.run task)
    session.runLines task lines =
      ⟨reports.all Report.succeeded, String.join (reports.map Report.output),
        reports.flatMap Report.complaints⟩ := by
  induction lines with
  | nil =>
      rfl
  | cons line rest inductionHypothesis =>
      rw [runLines_cons, inductionHypothesis]
      by_cases isBlank : isBlankText line.toList
      · rw [runLine, if_pos isBlank, Report.empty_append,
          List.filter_cons_of_neg (by simp [isBlank])]
      · rw [runLine, if_neg isBlank, Report.empty_append,
          List.filter_cons_of_pos (by simp [isBlank])]
        simp [Report.append]

end Session

/-! ## Runs -/

namespace Invocation

variable {invocation : Invocation}

theorem run_of_cannotBeSetUp (unready : invocation.CannotBeSetUp)
    (input : String) :
    (invocation.run input).status = 2 ∧ (invocation.run input).output = "" := by
  obtain ⟨fault, failed⟩ :=
    (Session.exists_setUp_eq_error_iff invocation).2 unready
  rw [run, failed]
  exact ⟨rfl, rfl⟩

theorem exists_session (ready : ¬ invocation.CannotBeSetUp) :
    ∃ session, Session.setUp invocation = .ok session := by
  cases isSetUp : Session.setUp invocation with
  | ok session =>
      exact ⟨session, rfl⟩
  | error fault =>
      exact absurd ((Session.exists_setUp_eq_error_iff invocation).1
        ⟨fault, isSetUp⟩) ready

/-- A run for a source is set up like the run without it, and reads nothing
else. -/
theorem run_withSource {session : Session}
    (isSetUp : Session.setUp invocation = .ok session)
    (source input : String) :
    (invocation.withSource source).run input =
      (session.run invocation.task source).outcome := by
  have setUpAlike : Session.setUp (invocation.withSource source) =
      .ok session := isSetUp
  rw [run, setUpAlike]
  rfl

/-- A run without a source leaves what the runs leave together that have the
lines of its input as sources. -/
theorem run_eq_of_hasLines (ready : ¬ invocation.CannotBeSetUp)
    (unsourced : invocation.source? = none) {input : String}
    {lines : List String} (has : HasLines input.toList lines)
    (other : String) :
    let sources := lines.filter fun line => !isBlankText line.toList
    let outcomes := sources.map fun source =>
      (invocation.withSource source).run other
    invocation.run input =
      ⟨if ∀ outcome ∈ outcomes, outcome.status = 0 then 0 else 1,
        String.join (outcomes.map Outcome.output),
        outcomes.flatMap Outcome.complaints⟩ := by
  intro sources outcomes
  obtain ⟨session, isSetUp⟩ := exists_session ready
  have single : outcomes = sources.map fun source =>
      (session.run invocation.task source).outcome :=
    List.map_congr_left fun source _ => run_withSource isSetUp source other
  have allSucceed : (sources.map (session.run invocation.task)).all
        Report.succeeded = true ↔
      ∀ outcome ∈ outcomes, outcome.status = 0 := by
    simp only [single, List.all_eq_true, List.forall_mem_map,
      Report.outcome_status_eq_zero_iff]
  rw [run, isSetUp]
  simp only [unsourced, has.linesOf_eq, session.runLines_eq, Report.outcome,
    ← allSucceed]
  rw [single, List.map_map, List.map_map, List.flatMap_map, List.flatMap_map]
  rfl

end Invocation

theorem run_of_accepted {read : List String → Except Outcome Invocation}
    {arguments : List String} {invocation : Invocation}
    (accepted : read arguments = .ok invocation) (input : String) :
    run read arguments input = invocation.run input := by
  rw [run, accepted]

/-- Let arguments be accepted as a run, and a text behind them as its source. If
the value of some variable cannot be found or some local variable cannot be
declared, the run ends with status 2 and prints nothing, whatever its source or
input. Otherwise a run without a source leaves what the runs leave that are
given the lines of its input which are not blank as their sources, one after the
other, and ends with status 0 if all of these do and else with status 1. -/
theorem lines_run_apart (read : List String → Except Outcome Invocation)
    (arguments : List String) (invocation : Invocation)
    (accepted : read arguments = .ok invocation)
    (takesSource : TakesSource read arguments) :
    (invocation.CannotBeSetUp → ∀ input,
      (run read arguments input).status = 2 ∧
        (run read arguments input).output = "") ∧
      (invocation.source? = none →
        (invocation.CannotBeSetUp → ∀ source input,
          (run read (withSource arguments source) input).status = 2 ∧
            (run read (withSource arguments source) input).output = "") ∧
        (¬ invocation.CannotBeSetUp → ∀ input,
          (∃! lines, HasLines input.toList lines) ∧
          ∀ lines, HasLines input.toList lines → ∀ other,
            let sources := lines.filter fun line => !isBlankText line.toList
            let outcomes := sources.map fun source =>
              run read (withSource arguments source) other
            let whole := run read arguments input
            whole.output = String.join (outcomes.map Outcome.output) ∧
              whole.complaints = outcomes.flatMap Outcome.complaints ∧
                whole.status =
                  if ∀ outcome ∈ outcomes, outcome.status = 0 then 0
                  else 1)) := by
  refine ⟨fun unready input => ?_, fun unsourced => ?_⟩
  · rw [run_of_accepted accepted]
    exact Invocation.run_of_cannotBeSetUp unready input
  have sourced := takesSource invocation accepted unsourced
  refine ⟨fun unready source input => ?_, fun ready input =>
    ⟨existsUnique_hasLines _, fun lines has other => ?_⟩⟩
  · have alike : (invocation.withSource source).CannotBeSetUp := unready
    rw [run_of_accepted (sourced source)]
    exact Invocation.run_of_cannotBeSetUp alike input
  · intro sources outcomes whole
    have apart : outcomes = sources.map fun source =>
        (invocation.withSource source).run other :=
      List.map_congr_left fun source _ =>
        run_of_accepted (sourced source) other
    have left : whole = invocation.run input := run_of_accepted accepted input
    rw [left, Invocation.run_eq_of_hasLines ready unsourced has other, apart]
    exact ⟨rfl, rfl, rfl⟩

/-- A blank line, a line with a fault and one with a value, for a variable that
has a value; then a variable that has none. -/
theorem lines_before_and_after_fault :
    let arguments := ["eval", "--var", "x=1"]
    let invocation : Invocation := ⟨1000, .evaluate [("x", "1")], none⟩
    let unready : Invocation := ⟨1000, .evaluate [("x", "y")], none⟩
    let faulty := run readArguments (withSource arguments "x+") ""
    let valued := run readArguments (withSource arguments "x") ""
    readArguments arguments = .ok invocation ∧
      TakesSource readArguments arguments ∧
      invocation.source? = none ∧ ¬ invocation.CannotBeSetUp ∧
      HasLines " \r\nx+\nx".toList [" ", "x+", "x"] ∧
      (run readArguments arguments " \r\nx+\nx").output =
        faulty.output ++ valued.output ∧
      faulty.output = "" ∧ faulty.status = 1 ∧
      valued.output = "1\n" ∧ valued.status = 0 ∧
      (run readArguments arguments " \r\nx+\nx").status = 1 ∧
      readArguments ["eval", "--var", "x=y"] = .ok unready ∧
      unready.CannotBeSetUp ∧
      (run readArguments ["eval", "--var", "x=y"] "1").status = 2 := by
  intro arguments invocation unready faulty valued
  have accepted : readArguments arguments = .ok invocation := by
    decide +kernel
  have acceptedUnready :
      readArguments ["eval", "--var", "x=y"] = .ok unready := by
    decide +kernel
  have value : (invocation.language.evaluate (fun _ _ => none) .empty "1").1 =
      .ok (.number (.int 1)) := by
    decide +kernel
  have noValue : (unready.language.evaluate (fun _ _ => none) .empty "y").1 =
      .error (.unknownReference "y") := by
    decide +kernel
  have isReady : ¬ invocation.CannotBeSetUp := by
    rintro ⟨binding, isBinding, error, failed⟩
    obtain rfl := List.mem_singleton.1 isBinding
    cases value.symm.trans failed
  have notReady : unready.CannotBeSetUp :=
    ⟨("x", "y"), List.mem_singleton_self _, _, noValue⟩
  have lines : HasLines " \r\nx+\nx".toList [" ", "x+", "x"] :=
    .ended (by decide : '\n' ∉ [' ', '\r'])
      (.ended (by decide : '\n' ∉ ['x', '+'])
        (.last (by decide : ['x'] ≠ []) (by decide)))
  have takesSource := takesSource_readArguments arguments
  have apart := ((lines_run_apart readArguments arguments invocation accepted
    takesSource).2 rfl).2 isReady " \r\nx+\nx"
  have ended := (lines_run_apart readArguments _ unready acceptedUnready
    (takesSource_readArguments _)).1 notReady "1"
  obtain ⟨output, _, status⟩ := apart.2 _ lines ""
  refine ⟨accepted, takesSource, rfl, isReady, lines, ?_, ?_, ?_, ?_, ?_, ?_,
    acceptedUnready, notReady, ended.1⟩
  · rw [output]
    rfl
  · decide +kernel
  · decide +kernel
  · decide +kernel
  · decide +kernel
  · rw [status]
    decide +kernel

end Formula.CommandLine
