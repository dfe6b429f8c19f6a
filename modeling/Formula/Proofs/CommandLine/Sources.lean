import Formula.CommandLine.Help
import Mathlib.Data.List.Basic

/-!
# Sources among the arguments

What is asked of reading the arguments: a source that is added behind
acceptable arguments without one changes nothing else that they ask for,
whatever the source is. It stands behind the terminator of the options, so that
it may begin with a hyphen. The arguments are read so.
-/

namespace Formula.CommandLine

/-- What gives a source when it follows some arguments: a terminator, unless
they have one, and the source. -/
def sourceArguments (arguments : List String) (source : String) :
    List String :=
  if "--" ∈ arguments then [source] else ["--", source]

def withSource (arguments : List String) (source : String) : List String :=
  arguments ++ sourceArguments arguments source

def Invocation.withSource (invocation : Invocation) (source : String) :
    Invocation :=
  { invocation with source? := some source }

/-- A text behind the terminator of the options is the source of the run that
the arguments before it ask for, if they have none. -/
def TakesSource (read : List String → Except Outcome Invocation)
    (arguments : List String) : Prop :=
  ∀ invocation, read arguments = .ok invocation →
    invocation.source? = none → ∀ source,
      read (withSource arguments source) = .ok (invocation.withSource source)

/-! ## The terminator -/

theorem Argument.of_terminator : Argument.of "--" = .terminator := rfl

theorem Argument.eq_of_terminator {text : String}
    (isTerminator : Argument.of text = .terminator) : text = "--" := by
  unfold of at isTerminator
  split at isTerminator
  · rename_i hyphens
    exact String.toList_injective hyphens
  · split at isTerminator <;> cases isTerminator
  · cases isTerminator
  · cases isTerminator

/-- Before anything but the terminator, a source is added as behind it. -/
theorem sourceArguments_cons {text : String} {form : Argument}
    (hasForm : Argument.of text = form) (notTerminator : form ≠ .terminator)
    (rest : List String) (source : String) :
    sourceArguments (text :: rest) source = sourceArguments rest source := by
  have different : "--" ≠ text := by
    rintro rfl
    exact notTerminator (hasForm.symm.trans Argument.of_terminator)
  have same : "--" ∈ text :: rest ↔ "--" ∈ rest := by
    rw [List.mem_cons, or_iff_right different]
  simp only [sourceArguments, same]

theorem Argument.ne_terminator_of_isValue {form : Argument}
    (isValue : form.isValue) : form ≠ .terminator := by
  rintro rfl
  cases isValue

/-! ## Settings -/

namespace Setting

theorem andThen_eq_set_iff {setting : Setting} {next : Settings → Setting}
    {after : Settings} :
    setting.andThen next = .set after ↔
      ∃ settings, setting = .set settings ∧ next settings = .set after := by
  cases setting with
  | set settings =>
      constructor
      · intro continued
        exact ⟨settings, rfl, continued⟩
      · rintro ⟨_, isSet, continued⟩
        cases isSet
        exact continued
  | help | rejected =>
      constructor
      · intro stopped
        cases stopped
      · rintro ⟨_, isSet, _⟩
        cases isSet

/-- What holds of every way to go on holds of going on. -/
theorem andThen_eq_set_of_forall {setting : Setting}
    {next other : Settings → Setting} {after result : Settings}
    (continued : setting.andThen next = .set after)
    (follows : ∀ settings, next settings = .set after →
      other settings = .set result) :
    setting.andThen other = .set result := by
  obtain ⟨settings, isSet, nextIsSet⟩ := andThen_eq_set_iff.1 continued
  exact andThen_eq_set_iff.2 ⟨settings, isSet, follows settings nextIsSet⟩

theorem toRequest?_eq_run_iff {setting : Setting} {topic : HelpTopic}
    {next : Settings → Option Request} {invocation : Invocation} :
    setting.toRequest? topic next = some (.run invocation) ↔
      ∃ settings, setting = .set settings ∧
        next settings = some (.run invocation) := by
  cases setting with
  | set settings =>
      constructor
      · intro continued
        exact ⟨settings, rfl, continued⟩
      · rintro ⟨_, isSet, continued⟩
        cases isSet
        exact continued
  | help | rejected =>
      constructor
      · intro stopped
        cases stopped
      · rintro ⟨_, isSet, _⟩
        cases isSet

theorem toRequest?_eq_run_of_forall {setting : Setting} {topic : HelpTopic}
    {next other : Settings → Option Request} {invocation result : Invocation}
    (continued : setting.toRequest? topic next = some (.run invocation))
    (follows : ∀ settings, next settings = some (.run invocation) →
      other settings = some (.run result)) :
    setting.toRequest? topic other = some (.run result) := by
  obtain ⟨settings, isSet, nextIsRun⟩ := toRequest?_eq_run_iff.1 continued
  exact toRequest?_eq_run_iff.2 ⟨settings, isSet, follows settings nextIsRun⟩

end Setting

/-- The same settings with a source. -/
def Settings.withSource (settings : Settings) (source : String) : Settings :=
  { settings with source? := some source }

theorem Settings.setSource_of_none {settings : Settings}
    (unsourced : settings.source? = none) (source : String) :
    settings.setSource source = .set (settings.withSource source) := by
  rw [setSource, unsourced]
  rfl

/-! ## Arguments of a subcommand -/

variable {after : Settings} (source : String)

theorem readSources_append (unsourced : after.source? = none) :
    ∀ {arguments : List String} {settings : Settings},
      readSources settings arguments = .set after →
        readSources settings (arguments ++ [source]) =
          .set (after.withSource source) := by
  intro arguments
  induction arguments with
  | nil =>
      intro settings read
      cases read
      rw [List.nil_append, readSources,
        Settings.setSource_of_none unsourced]
      rfl
  | cons text rest inductionHypothesis =>
      intro settings read
      rw [readSources] at read
      rw [List.cons_append, readSources]
      exact Setting.andThen_eq_set_of_forall read fun _ => inductionHypothesis

/-- A source behind the arguments of a subcommand, none of which is one, is
read as the source. -/
theorem readAfter_append {command : Command} {settings : Settings}
    {arguments : List String} (unsourced : after.source? = none)
    (read : readAfter command settings arguments = .set after) :
    readAfter command settings
        (arguments ++ sourceArguments arguments source) =
      .set (after.withSource source) := by
  fun_induction readAfter command settings arguments with
  | case1 settings =>
      have noneRead : readSources settings [] = .set settings := rfl
      cases read
      exact readSources_append source unsourced noneRead
  | case2 settings text rest isTerminator =>
      obtain rfl := Argument.eq_of_terminator isTerminator
      rw [sourceArguments, if_pos List.mem_cons_self, List.cons_append,
        readAfter, isTerminator]
      exact readSources_append source unsourced read
  | case3 settings text rest _ isRead inductionHypothesis
  | case4 settings text rest _ isRead inductionHypothesis
  | case5 settings text rest isRead inductionHypothesis
  | case7 settings text rest _ _ isRead inductionHypothesis =>
      rw [sourceArguments_cons isRead nofun, List.cons_append]
      simp only [readAfter, isRead]
      exact Setting.andThen_eq_set_of_forall read inductionHypothesis
  | case8 settings text name notVerbose notHelp isLong value rest isValue
      inductionHypothesis =>
      rw [sourceArguments_cons isLong nofun,
        sourceArguments_cons rfl (Argument.ne_terminator_of_isValue isValue),
        List.cons_append, List.cons_append, readAfter, isLong]
      simp only [if_pos isValue]
      exact Setting.andThen_eq_set_of_forall read inductionHypothesis
  | case6 | case9 | case10 =>
      cases read

/-! ## All arguments -/

variable {limit : Nat} {invocation : Invocation}

theorem readHelp?_ne_run (arguments : List String) (invocation : Invocation) :
    readHelp? arguments ≠ some (.run invocation) := by
  unfold readHelp?
  split
  · exact nofun
  · exact nofun
  · intro isRun
    obtain ⟨_, _, isHelp⟩ := Option.map_eq_some_iff.1 isRun
    cases isHelp
  · exact nofun

/-- A source behind all arguments, none of which is one, stands behind those of
the subcommand. -/
theorem readBefore?_append (unsourced : invocation.source? = none)
    {settings : Settings} {waiting? : Option String}
    {arguments : List String}
    (read : readBefore? limit settings waiting? arguments =
      some (.run invocation)) :
    readBefore? limit settings waiting?
        (arguments ++ sourceArguments arguments source) =
      some (.run (invocation.withSource source)) := by
  fun_induction readBefore? limit settings waiting? arguments with
  | case5 settings waiting? text rest name notHelp isPlain command isCommand =>
      obtain ⟨after, readRest, settled⟩ :=
        Setting.toRequest?_eq_run_iff.1 read
      obtain ⟨before, isSettled, isRun⟩ :=
        Setting.toRequest?_eq_run_iff.1 settled
      cases isRun
      rw [sourceArguments_cons isPlain nofun, List.cons_append,
        readBefore?.eq_def]
      simp only [isPlain, isCommand]
      have readOn := readAfter_append source unsourced readRest
      exact Setting.toRequest?_eq_run_iff.2 ⟨_, readOn,
        Setting.toRequest?_eq_run_iff.2 ⟨before, isSettled, rfl⟩⟩
  | case6 settings waiting? text rest _ isRead inductionHypothesis
  | case7 settings waiting? text rest isRead inductionHypothesis
  | case9 settings waiting? text rest _ _ isRead inductionHypothesis =>
      rw [sourceArguments_cons isRead nofun, List.cons_append,
        readBefore?.eq_def]
      simp only [isRead]
      exact Setting.toRequest?_eq_run_of_forall read inductionHypothesis
  | case10 settings waiting? text isLong value rest isValue
      inductionHypothesis =>
      rw [sourceArguments_cons isLong nofun,
        sourceArguments_cons rfl (Argument.ne_terminator_of_isValue isValue),
        List.cons_append, List.cons_append]
      simp only [readBefore?, isLong, if_pos isValue]
      exact Setting.toRequest?_eq_run_of_forall read inductionHypothesis
  | case3 =>
      exact absurd read (readHelp?_ne_run _ _)
  | case8 =>
      obtain ⟨_, _, isRun⟩ := Setting.toRequest?_eq_run_iff.1 read
      cases isRun
  | case1 | case2 | case4 | case11 | case12 | case13 =>
      cases read

/-- A source behind acceptable arguments without one is the source of the run
that they ask for. -/
theorem ofArguments?_withSource {arguments : List String}
    (accepted : Request.ofArguments? limit arguments = some (.run invocation))
    (unsourced : invocation.source? = none) (source : String) :
    Request.ofArguments? limit (withSource arguments source) =
      some (.run (invocation.withSource source)) :=
  readBefore?_append source unsourced accepted

theorem readArguments_eq_ok_iff {arguments : List String} :
    readArguments arguments = .ok invocation ↔
      Request.ofArguments? Language.standard.limit arguments =
        some (.run invocation) := by
  unfold readArguments
  split
  · rename_i accepted
    rw [accepted]
    exact ⟨fun isRun => by cases isRun; rfl, fun isRun => by cases isRun; rfl⟩
  · rename_i isHelp
    rw [isHelp]
    exact ⟨nofun, nofun⟩
  · rename_i isRejected
    rw [isRejected]
    exact ⟨nofun, nofun⟩

theorem takesSource_readArguments (arguments : List String) :
    TakesSource readArguments arguments := by
  intro invocation accepted unsourced source
  rw [readArguments_eq_ok_iff] at accepted ⊢
  exact ofArguments?_withSource accepted unsourced source

end Formula.CommandLine
