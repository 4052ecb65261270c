import AccessGroups.Proofs.Log.Fields

/-!
What a line shows of the record itself. The message is always the record's own; the time, the level,
the logger and the failure are its own unless an extra has the name of the field, which no check of the
names of extras keeps out.
-/

set_option autoImplicit false

namespace AccessGroups.Log

/-- What a line shows in a field of the record's own: the preview of the extra of that name, if there is
one. -/
def standIn (attributes : List (String × Value)) (name : String) (own : Value) : Value :=
  ((attributes.lookup name).map fun v => Value.text (preview v)).getD own

theorem lookup_shownFields (r : Record) (attributes : List (String × Value)) (p : Particulars)
    (name : String) (extra : name ∉ hiddenAttributes) {own : Value}
    (stated : (r.statedFields p).lookup name = some own) :
    (r.shownFields attributes p).lookup name = some (standIn attributes name own) := by
  rw [Record.shownFields, lookup_overlay, lookup_asTexts, lookup_shownExtras, if_neg extra, stated,
    standIn]
  cases attributes.lookup name <;> rfl

/-- The message is not an extra. -/
theorem lookup_shownFields_message (r : Record) (attributes : List (String × Value))
    (p : Particulars) :
    (r.shownFields attributes p).lookup "message" = some (.text p.message) := by
  rw [Record.shownFields, lookup_overlay, lookup_asTexts, lookup_shownExtras, if_pos (by decide)]
  rfl

/-- A failure is shown when the record has one or an extra has its name. -/
theorem lookup_shownFields_exception (r : Record) (attributes : List (String × Value))
    (p : Particulars) :
    (r.shownFields attributes p).lookup "exception" =
      (((attributes.lookup "exception").map preview).or p.failure?).map .text := by
  have stated : (r.statedFields p).lookup "exception" = p.failure?.map .text := by
    unfold Record.statedFields fieldIf
    cases r.group.truthy <;> cases r.function.truthy <;> cases p.failure? <;>
      simp [lookup_cons_eq_ite]
  rw [Record.shownFields, lookup_overlay, lookup_asTexts, lookup_shownExtras, if_neg (by decide),
    stated]
  cases attributes.lookup "exception" <;> rfl

/-- A line that is written shows the record's own message, and in the fields for its time, its level,
its logger and its failure what the record has itself, unless an extra has the name of the field: then
the preview of the extra stands in the field. Other extras change none of these fields. -/
theorem line_own_fields (f : Format) {r : Record} {attributes : List (String × Value)} {line : String}
    (named : r.attributes = Entries.ofNamed attributes) (distinct : (namesOf attributes).Nodup)
    (written : f.line r = .ok line) :
    ∃ p, f.particulars r = .ok p ∧
      (f.json = true → ∃ members, Json.read? line = some (.object members) ∧
        (namesOf members).Nodup ∧
        members.lookup "timestamp" =
          some (Json.tree (standIn attributes "timestamp" (.text p.timestamp))) ∧
        members.lookup "level" = some (Json.tree (standIn attributes "level" r.levelName)) ∧
        members.lookup "logger" = some (Json.tree (standIn attributes "logger" r.logger)) ∧
        members.lookup "message" = some (.text p.message) ∧
        members.lookup "exception" =
          (((attributes.lookup "exception").map preview).or p.failure?).map .text) ∧
      (f.json = false → ∃ timestamp level logger : String,
        standIn attributes "timestamp" (.text p.timestamp) = .text timestamp ∧
        standIn attributes "level" r.levelName = .text level ∧
        standIn attributes "logger" r.logger = .text logger ∧
        line = "[" ++ timestamp ++ "] " ++ level ++ " " ++ logger ++
          Format.contextPart " group=" r.group ++ Format.contextPart " function=" r.function ++
          " : " ++ p.message) := by
  rw [Format.line_eq f named distinct, bind_eq_ok_iff] at written
  obtain ⟨p, told, written⟩ := written
  have timestamp := lookup_shownFields r attributes p "timestamp" (by decide) rfl
  have level := lookup_shownFields r attributes p "level" (by decide) rfl
  have logger := lookup_shownFields r attributes p "logger" (by decide) rfl
  have message := lookup_shownFields_message r attributes p
  refine ⟨p, told, fun json => ?_, fun plain => ?_⟩
  · rw [if_pos json] at written
    have member (name : String) := lookup_map (fun _ => Json.tree) (r.shownFields attributes p) name
    refine ⟨_, Format.read?_jsonLine written, ?_, ?_, ?_, ?_, ?_, ?_⟩
    · rw [namesOf_map fun _ => Json.tree]
      exact r.nodup_shownFields distinct p
    · rw [member, timestamp, Option.map_some]
    · rw [member, level, Option.map_some]
    · rw [member, logger, Option.map_some]
    · rw [member, message]
      rfl
    · rw [member, lookup_shownFields_exception, Option.map_map]
      rfl
  · rw [if_neg (Bool.eq_false_iff.mp plain), Format.plainLine_eq_ok_iff, timestamp, level, logger,
      message] at written
    simp only [Option.some.injEq, Value.text.injEq] at written
    obtain ⟨timestamp, level, logger, _, stamped, rated, logged, rfl, shown⟩ := written
    exact ⟨timestamp, level, logger, stamped, rated, logged, shown⟩

/-- An extra under the name of a field, which is accepted, and one under a name of its own. -/
def demotingAttributes : List (String × Value) := [("level", .text "INFO"), ("attempt", .int 2)]

def demotedRecord : Record where
  logger := .text "lambdaaccess.emitter"
  levelName := .text "ERROR"
  template := .text "boom"
  arguments := .tuple []
  created := .int 0
  milliseconds := .int 0
  raised? := none
  attributes := Entries.ofNamed demotingAttributes

theorem line_own_fields_demoted :
    demotedRecord.attributes = Entries.ofNamed demotingAttributes ∧
      (namesOf demotingAttributes).Nodup ∧
      ∃ line members, (Format.mk true none).line demotedRecord = .ok line ∧
        Json.read? line = some (.object members) ∧
        members.lookup "timestamp" = some (.text "1970-01-01 00:00:00,000") ∧
        members.lookup "level" = some (.text "INFO") ∧
        members.lookup "logger" = some (.text "lambdaaccess.emitter") ∧
        members.lookup "message" = some (.text "boom") ∧
        members.lookup "exception" = none := by
  have named : demotedRecord.attributes = Entries.ofNamed demotingAttributes := rfl
  have distinct : (namesOf demotingAttributes).Nodup := by decide
  obtain ⟨line, written⟩ : ∃ line, (Format.mk true none).line demotedRecord = .ok line :=
    ⟨_, rfl⟩
  obtain ⟨p, told, json, -⟩ := line_own_fields (Format.mk true none) named distinct written
  obtain ⟨members, read, -, timestamp, level, logger, message, failure⟩ := json rfl
  have particulars : (Format.mk true none).particulars demotedRecord =
      .ok ⟨"1970-01-01 00:00:00,000", "boom", none⟩ := rfl
  cases told.symm.trans particulars
  exact ⟨named, distinct, line, members, written, read, timestamp, level, logger, message, failure⟩

def demotedFields : List (String × String) :=
  [("timestamp", "1970-01-01 00:00:00,000"), ("level", "INFO"), ("logger", "lambdaaccess.emitter"),
    ("message", "boom"), ("attempt", "2")]

/-- An error with an accepted extra under the name of its level is shown without its own level. -/
theorem line_hides_level :
    (∀ name ∈ namesOf demotingAttributes, name ∉ refusedExtras) ∧
      demotedRecord.levelName = .text "ERROR" ∧
      (∃ line members, (Format.mk true none).line demotedRecord = .ok line ∧
        Json.read? line = some (.object members) ∧ members.lookup "level" = some (.text "INFO")) ∧
      (Format.mk false none).line demotedRecord =
        .ok "[1970-01-01 00:00:00,000] INFO lambdaaccess.emitter : boom" := by
  have shown : (Format.mk true none).line demotedRecord =
      Format.jsonLine (Entries.ofNamed (asTexts demotedFields)) := rfl
  obtain ⟨line, written⟩ := Format.exists_jsonLine_asTexts demotedFields
  exact ⟨by decide, rfl, ⟨line, _, shown.trans written, Format.read?_jsonLine written, rfl⟩, rfl⟩

end AccessGroups.Log
