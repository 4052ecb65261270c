import AccessGroups.Proofs.Log.Extras

/-!
Setups in a session. However the root logger was set up before, after a setup it has the level of the
settings and one handler, a console at the same level. So all that a session leaves behind is its latest
setup, and what a call writes depends on nothing else.
-/

set_option autoImplicit false

namespace AccessGroups.Log

namespace Root

/-- The root logger of a session whose latest setup had these settings. -/
def console (settings : Settings) : Root :=
  ⟨settings.logLevel, [.console settings.logLevel settings.logJson]⟩

theorem foldl_removeHandler (level : Level) (handlers : List Handler) :
    handlers.foldl removeHandler ⟨level, handlers⟩ = ⟨level, []⟩ := by
  induction handlers with
  | nil => rfl
  | cons handler rest ih =>
    have first : removeHandler ⟨level, handler :: rest⟩ handler = ⟨level, rest⟩ := by
      rw [removeHandler, List.erase_cons_head]
    rw [List.foldl_cons, first, ih]

theorem setUp_eq (root : Root) (settings : Settings) : root.setUp settings = console settings := by
  have cleared := foldl_removeHandler settings.logLevel root.handlers
  simp only [setUp, setLevel, cleared]
  rfl

end Root

def Action.accepted? : Action → Option Settings
  | .setUp source =>
    match source.read with
    | .ok (.ok settings) => some settings
    | _ => none
  | .call _ => none

/-- The settings of the latest setup that was accepted. -/
def latest? (steps : List (Instant × Action)) : Option Settings :=
  (steps.filterMap fun step => step.2.accepted?).getLast?

theorem Action.accepted?_setUp {source : SettingsSource} {settings : Settings}
    (read : source.read = .ok (.ok settings)) :
    (Action.setUp source).accepted? = some settings := by
  simp only [accepted?, read]

theorem latest?_cons (step : Instant × Action) (rest : List (Instant × Action)) :
    latest? (step :: rest) = (latest? rest).or step.2.accepted? := by
  unfold latest?
  rw [List.filterMap_cons]
  cases step.2.accepted? with
  | none => rw [Option.or_none]
  | some settings =>
    rw [List.getLast?_cons]
    cases (rest.filterMap fun step => step.2.accepted?).getLast? <;> rfl

namespace Root

/-- One step: an accepted setup sets the root logger up, and nothing else changes it. -/
theorem act_root (root : Root) (now : Instant) (action : Action) :
    (root.act now action).2 = action.accepted?.elim root console := by
  cases action with
  | setUp source =>
    simp only [act, Action.accepted?]
    rcases source.read with misuse | issues | settings
    · rfl
    · rfl
    · exact root.setUp_eq settings
  | call call =>
    simp only [act, Action.accepted?]
    cases call.run root now <;> rfl

theorem act_rejected (root : Root) (now : Instant) {source : SettingsSource}
    (rejected : ∀ settings, source.read ≠ .ok (.ok settings)) :
    (root.act now (.setUp source)).2 = root := by
  rcases read : source.read with misuse | issues | accepted
  · simp only [act, read]
  · simp only [act, read]
  · exact absurd read (rejected accepted)

def after (root : Root) (steps : List (Instant × Action)) : Root := (root.actAll steps).2

/-- A whole session: only its latest accepted setup is left. -/
theorem after_eq (root : Root) (steps : List (Instant × Action)) :
    root.after steps = (latest? steps).elim root console := by
  induction steps generalizing root with
  | nil => rfl
  | cons step rest ih =>
    obtain ⟨now, action⟩ := step
    have next : root.after ((now, action) :: rest) = (root.act now action).2.after rest := rfl
    rw [next, ih, act_root, latest?_cons]
    cases latest? rest <;> rfl

/-- What a console writes for a call at its level or above: the line of the call's record, if there is
one. -/
theorem run_console (settings : Settings) (call : Call) (now : Instant) :
    call.run (console settings) now =
      if call.level < settings.logLevel.number then .ok ""
      else (call.record now).map fun r => writtenLine ((Format.mk settings.logJson none).line r) := by
  unfold Call.run console
  by_cases below : call.level < settings.logLevel.number
  · rw [if_pos below, if_pos below]
  · rw [if_neg below, if_neg below]
    refine congrArg (Except.map · (call.record now)) (funext fun r => ?_)
    simp [emit, Handler.emit, below, String.join]

end Root

/-- A session with an accepted setup. The root logger has one handler, which is a console, and both have
the level of the latest such setup, the console also its form; a setup that is turned down changes nothing.
A further call answers as it would in a fresh session with that setup alone. It writes nothing below the
level, and otherwise, if it fits, one line. -/
theorem session_latest {stale : Nat} {steps : List (Instant × Action)} {root : Root}
    (reached : (Root.initial stale).after steps = root) {settings : Settings}
    (latest : latest? steps = some settings) :
    root.level = settings.logLevel ∧
      root.handlers = [.console settings.logLevel settings.logJson] ∧
      (∀ (now : Instant) (source : SettingsSource), (∀ others, source.read ≠ .ok (.ok others)) →
        (root.act now (.setUp source)).2 = root) ∧
      ∀ (call : Call) (now : Instant),
        (∀ (others : Nat) (before : Instant) (source : SettingsSource),
          source.read = .ok (.ok settings) →
            (root.act now (.call call)).1 =
              (((Root.initial others).after [(before, .setUp source)]).act now (.call call)).1) ∧
        (call.level < settings.logLevel.number →
          (root.act now (.call call)).1 = .wrote "") ∧
        (settings.logLevel.number ≤ call.level → call.Fits now →
          ∃ r line, call.record now = .ok r ∧
            (Format.mk settings.logJson none).line r = .ok line ∧
            (root.act now (.call call)).1 = .wrote (line ++ "\n")) := by
  obtain rfl : root = Root.console settings := by
    rw [← reached, Root.after_eq, latest]
    rfl
  refine ⟨rfl, rfl, fun now source rejected => Root.act_rejected _ now rejected,
    fun call now => ⟨?_, ?_, ?_⟩⟩
  · intro others before source read
    have fresh : latest? [(before, .setUp source)] = some settings := by
      rw [latest?_cons, Action.accepted?_setUp read]
      rfl
    rw [Root.after_eq, fresh]
    rfl
  · intro below
    simp only [Root.act, Root.run_console, if_pos below]
  · intro reaching fits
    obtain ⟨r, line, made, written⟩ := fits.exists_line settings.logJson
    refine ⟨r, line, made, written, ?_⟩
    simp only [Root.act, Root.run_console, if_neg (Int.not_lt.mpr reaching), made, Except.map, written,
      writtenLine]

/-- A session that is set up by the environment, turned down for a level that there is none of, set up by
settings, and turned down for a word that is no truth value. -/
def restarted (json : Bool) : List (Instant × Action) :=
  [(⟨0, 0⟩, .setUp (.environment fun name =>
      if name = "LAMBDA_ACCESS_LOG_JSON" then some "yes" else none)),
    (⟨1, 0⟩, .setUp (.arguments [(.text "log_level", .text "LOUD")])),
    (⟨2, 0⟩, .setUp (.arguments
      [(.text "log_level", .text "WARNING"), (.text "log_json", .bool json)])),
    (⟨3, 0⟩, .setUp (.arguments [(.text "log_json", .text "maybe")]))]

set_option maxRecDepth 4000 in
theorem latest?_restarted (json : Bool) :
    latest? (restarted json) = some ⟨.warning, json, Settings.defaultLogPrefix, false⟩ := by
  cases json <;> rfl

/-- A call at a level without a name, made while a failure is being handled, with all that it can name. -/
def handlingCall : Call where
  logger := "lambdaaccess"
  level := 35
  group := .text "api"
  template := .text "try %02d of %-4s|%.1f%%"
  arguments := [.int 2, .text "ab", .int 50]
  named := [(.text "function", .text "F"), (.text "extra", .map (Entries.ofNamed [("left", .int 3)])),
    (.text "stack_info", .bool true), (.text "stacklevel", .int 2)]
  cause := .given (.bool true)
  handled? := some (.failure "ValueError" "bad")
  stack := "Stack (most recent call last):"

theorem handlingCall_fits : handlingCall.Fits ⟨4, 7⟩ where
  message := ⟨"try 02 of ab  |50.0%", rfl⟩
  options := by
    simp [handlingCall, callOptions]
  count := rfl
  extra := Or.inr ⟨[("left", .int 3)], rfl, by simp, by decide⟩
  raised := by
    rintro raised ⟨⟩
    exact ⟨_, rfl⟩
  context := by
    intro r made
    cases made
    exact ⟨Or.inr ⟨"api", rfl⟩, Or.inr ⟨"F", rfl⟩⟩
  clock := ⟨_, rfl⟩

/-- Its extras, with its context among them. -/
def handlingAttributes : List (String × Value) :=
  [("left", .int 3), ("group", .text "api"), ("function", .text "F")]

def handlingFields : List (String × String) :=
  [("timestamp", "1970-01-01 00:00:04,007"), ("level", "Level 35"), ("logger", "lambdaaccess"),
    ("message", "try 02 of ab  |50.0%"), ("group", "api"), ("function", "F"),
    ("exception", "ValueError: bad"), ("left", "3")]

theorem session_latest_restarted :
    ((Root.initial 2).after (restarted true)).handlers = [.console .warning true] ∧
      ∃ line,
        (((Root.initial 2).after (restarted true)).act ⟨4, 7⟩ (.call handlingCall)).1 =
          .wrote (line ++ "\n") ∧
        Json.read? line = some (.object (handlingFields.map fun e => (e.1, .text e.2))) := by
  obtain ⟨-, handlers, -, calls⟩ :=
    session_latest (Eq.refl ((Root.initial 2).after (restarted true))) (latest?_restarted true)
  obtain ⟨-, -, reaching⟩ := calls handlingCall ⟨4, 7⟩
  obtain ⟨r, line, made, written, wrote⟩ := reaching (by decide) handlingCall_fits
  have recorded : handlingCall.record ⟨4, 7⟩ =
      .ok (handlingCall.recordWith ⟨4, 7⟩ (Entries.ofNamed handlingAttributes)) := rfl
  cases made.symm.trans recorded
  have particulars : (Format.mk true none).particulars
      (handlingCall.recordWith ⟨4, 7⟩ (Entries.ofNamed handlingAttributes)) =
        .ok ⟨"1970-01-01 00:00:04,007", "try 02 of ab  |50.0%", some "ValueError: bad"⟩ := rfl
  have distinct : (namesOf handlingAttributes).Nodup := by decide
  rw [Format.line_eq _ rfl distinct, particulars] at written
  have shown : Format.jsonLine (Entries.ofNamed (asTexts handlingFields)) = .ok line := written
  exact ⟨handlers, line, wrote, Format.read?_jsonLine shown⟩

/-- A warning by a logger that is bound to a group, with one extra. -/
def warningWith (extra : String) : Call where
  logger := "lambdaaccess"
  level := Level.warning
  group := .text "api"
  template := .text "try %s"
  arguments := [.int 2]
  named := [(.text "extra", .map (Entries.ofNamed [(extra, .text "x")]))]

/-- An extra that is not refused can still keep a record from being written: it hides what the record is
asked for its message by. -/
theorem session_loses_record :
    latest? (restarted false) = some ⟨.warning, false, Settings.defaultLogPrefix, false⟩ ∧
      (warningWith "getMessage").level = Level.warning.number ∧
      expand (warningWith "getMessage").template
        (Arguments.pack (warningWith "getMessage").arguments) = .ok "try 2" ∧
      Entries.get? (warningWith "getMessage").named (.text "extra") =
        some (.map [(.text "getMessage", .text "x")]) ∧
      "getMessage" ∉ refusedExtras ∧
      (∃ r, (warningWith "getMessage").record ⟨4, 7⟩ = .ok r ∧ r.group = .text "api" ∧
        r.function = .null) ∧
      (∃ moment, Moment.ofValue (.int 4) = .ok moment) ∧
      (((Root.initial 2).after (restarted false)).act ⟨4, 7⟩ (.call (warningWith "getMessage"))).1 =
        .wrote "" := by
  refine ⟨latest?_restarted false, rfl, rfl, rfl, by decide, ⟨_, rfl, rfl, rfl⟩, ⟨_, rfl⟩, ?_⟩
  rw [Root.after_eq, latest?_restarted false]
  rfl

end AccessGroups.Log
