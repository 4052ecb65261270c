import AccessGroups.Proofs.Log.Fields

/-!
Lines read back. The JSON line of a record is one physical line and reads back as an object of texts,
which are the fields of the record with its extras laid over them; the plain line of the record can be
put together from that object alone.
-/

set_option autoImplicit false

namespace AccessGroups.Log

/-! ## Records with a line in either form -/

/-- A record of which a line can be written in either form: its message formats, it has a level and a
logger, what it names as its context are texts, it was made at a moment, and a failure it carries has a
text. Its attributes are named, each of them once. -/
structure Record.Regular (r : Record) (attributes : List (String × Value)) : Prop where
  message : ∃ message, r.message = .ok message
  level : ∃ level, r.levelName = .text level
  logger : ∃ logger, r.logger = .text logger
  group : r.group = .null ∨ ∃ name, r.group = .text name
  function : r.function = .null ∨ ∃ name, r.function = .text name
  named : r.attributes = Entries.ofNamed attributes
  distinct : (namesOf attributes).Nodup
  created : ∃ moment, Moment.ofValue r.created = .ok moment
  milliseconds : ∃ n, wholePart r.milliseconds = .ok n
  raised : ∀ raised, r.raised? = some raised → ∃ text, raised.text = .ok text

/-- The text of a context; where there is none it is empty. -/
def contextOr (v : Value) : String :=
  match v with
  | .text name => name
  | _ => ""

def textIf (name text : String) : List (String × String) :=
  if text = "" then [] else [(name, text)]

/-- The fields of a regular record before its extras. -/
def statedTexts (r : Record) (level logger : String) (p : Particulars) : List (String × String) :=
  [("timestamp", p.timestamp), ("level", level), ("logger", logger), ("message", p.message)] ++
    textIf "group" (contextOr r.group) ++ textIf "function" (contextOr r.function) ++
    p.failure?.toList.map fun text => ("exception", text)

theorem fieldIf_of_context {v : Value} (context : v = .null ∨ ∃ name, v = .text name)
    (name : String) : fieldIf name v = asTexts (textIf name (contextOr v)) := by
  rcases context with rfl | ⟨text, rfl⟩
  · rfl
  · by_cases empty : text = "" <;> simp [fieldIf, textIf, contextOr, Value.truthy, empty, asTexts]

theorem statedFields_eq_asTexts {r : Record} {attributes : List (String × Value)}
    (regular : r.Regular attributes) {level logger : String} (rated : r.levelName = .text level)
    (logged : r.logger = .text logger) (p : Particulars) :
    r.statedFields p = asTexts (statedTexts r level logger p) := by
  rw [Record.statedFields, statedTexts, fieldIf_of_context regular.group,
    fieldIf_of_context regular.function, rated, logged, asTexts_append, asTexts_append, asTexts_append]
  cases p.failure? <;> rfl

/-- The time of a record that was made at a moment can be written by any pattern without a null
character. -/
theorem Format.exists_timestamp (f : Format) {r : Record} {moment : Moment} {n : Int}
    (created : Moment.ofValue r.created = .ok moment) (milliseconds : wholePart r.milliseconds = .ok n)
    (clean : '\x00' ∉ (f.timePattern?.getD "").toList) : ∃ text, f.timestamp r = .ok text := by
  simp only [timestamp, created, milliseconds, bind, Except.bind]
  split
  · exact ⟨_, rfl⟩
  · rw [if_neg (by simpa using clean)]
    exact ⟨_, rfl⟩

theorem Record.Regular.exists_failure {r : Record} {attributes : List (String × Value)}
    (regular : r.Regular attributes) : ∃ failure?, r.failure = .ok failure? := by
  unfold Record.failure
  cases raised : r.raised? with
  | none => exact ⟨none, rfl⟩
  | some failure =>
    obtain ⟨text, written⟩ := regular.raised failure raised
    exact ⟨some text, by simp only [written]; rfl⟩

theorem Record.Regular.exists_particulars {r : Record} {attributes : List (String × Value)}
    (regular : r.Regular attributes) (f : Format)
    (clean : '\x00' ∉ (f.timePattern?.getD "").toList) : ∃ p, f.particulars r = .ok p := by
  obtain ⟨moment, created⟩ := regular.created
  obtain ⟨n, milliseconds⟩ := regular.milliseconds
  obtain ⟨timestamp, stamped⟩ := f.exists_timestamp created milliseconds clean
  obtain ⟨message, told⟩ := regular.message
  obtain ⟨failure?, failed⟩ := regular.exists_failure
  exact ⟨⟨timestamp, message, failure?⟩,
    (f.particulars_eq_ok_iff r _).mpr ⟨stamped, told, failed⟩⟩

def fieldPart (fields : List (String × String)) (mark name : String) : String :=
  (fields.lookup name).elim "" (mark ++ ·)

/-- The plain line that fields make up. -/
def plainOf? (fields : List (String × String)) : Option String := do
  let timestamp ← fields.lookup "timestamp"
  let level ← fields.lookup "level"
  let logger ← fields.lookup "logger"
  let message ← fields.lookup "message"
  return "[" ++ timestamp ++ "] " ++ level ++ " " ++ logger ++ fieldPart fields " group=" "group" ++
    fieldPart fields " function=" "function" ++ " : " ++ message

/-- The fields of a regular record as a JSON line shows them. -/
def shownTexts (r : Record) (attributes : List (String × Value)) (level logger : String)
    (p : Particulars) : List (String × String) :=
  overlay (statedTexts r level logger p) (shownExtras attributes)

theorem shownFields_eq_asTexts {r : Record} {attributes : List (String × Value)}
    (regular : r.Regular attributes) {level logger : String} (rated : r.levelName = .text level)
    (logged : r.logger = .text logger) (p : Particulars) :
    r.shownFields attributes p = asTexts (shownTexts r attributes level logger p) := by
  rw [Record.shownFields, statedFields_eq_asTexts regular rated logged, shownTexts, asTexts, asTexts,
    asTexts, overlay_map]

theorem nodup_shownTexts {r : Record} {attributes : List (String × Value)}
    (regular : r.Regular attributes) {level logger : String} (rated : r.levelName = .text level)
    (logged : r.logger = .text logger) (p : Particulars) :
    (namesOf (shownTexts r attributes level logger p)).Nodup := by
  have stated := r.nodup_statedFields p
  rw [statedFields_eq_asTexts regular rated logged, namesOf_asTexts] at stated
  exact nodup_overlay stated (nodup_shownExtras regular.distinct)

section Plain

variable (r : Record) (level logger : String) (p : Particulars)

theorem lookup_statedTexts_group : (statedTexts r level logger p).lookup "group" =
    if contextOr r.group = "" then none else some (contextOr r.group) := by
  unfold statedTexts textIf
  by_cases group : contextOr r.group = "" <;> by_cases function : contextOr r.function = "" <;>
    cases p.failure? <;> simp [group, function, lookup_cons_eq_ite]

theorem lookup_statedTexts_function : (statedTexts r level logger p).lookup "function" =
    if contextOr r.function = "" then none else some (contextOr r.function) := by
  unfold statedTexts textIf
  by_cases group : contextOr r.group = "" <;> by_cases function : contextOr r.function = "" <;>
    cases p.failure? <;> simp [group, function, lookup_cons_eq_ite]

/-- A field that is stated is shown, with its own text or with that of an extra. -/
theorem exists_shownText (attributes : List (String × Value)) (name own : String)
    (stated : (statedTexts r level logger p).lookup name = some own) :
    ∃ text, (shownTexts r attributes level logger p).lookup name = some text := by
  rw [shownTexts, lookup_overlay, stated]
  cases (shownExtras attributes).lookup name with
  | none => exact ⟨own, rfl⟩
  | some text => exact ⟨text, rfl⟩

/-- No extra stands in for the context. -/
theorem fieldPart_of_context (attributes : List (String × Value)) {name : String} {v : Value}
    (hidden : name ∈ hiddenAttributes) (context : v = .null ∨ ∃ text, v = .text text)
    (stated : (statedTexts r level logger p).lookup name =
      if contextOr v = "" then none else some (contextOr v)) (mark : String) :
    fieldPart (shownTexts r attributes level logger p) mark name = Format.contextPart mark v := by
  rw [fieldPart, shownTexts, lookup_overlay, lookup_shownExtras, if_pos hidden, stated]
  rcases context with rfl | ⟨text, rfl⟩
  · rfl
  · by_cases empty : text = "" <;>
      simp [Format.contextPart, contextOr, Value.truthy, empty]

end Plain

theorem plainLine_shownTexts {r : Record} {attributes : List (String × Value)}
    (regular : r.Regular attributes) (level logger : String) (p : Particulars) :
    ∃ plain, Format.plainLine r (Entries.ofNamed (asTexts (shownTexts r attributes level logger p))) =
        .ok plain ∧ plainOf? (shownTexts r attributes level logger p) = some plain := by
  have shown := exists_shownText r level logger p attributes
  obtain ⟨timestamp, stamped⟩ := shown "timestamp" p.timestamp rfl
  obtain ⟨rating, rated⟩ := shown "level" level rfl
  obtain ⟨source, logged⟩ := shown "logger" logger rfl
  obtain ⟨message, told⟩ := shown "message" p.message rfl
  have group := fieldPart_of_context r level logger p attributes (by decide) regular.group
    (lookup_statedTexts_group r level logger p) " group="
  have function := fieldPart_of_context r level logger p attributes (by decide) regular.function
    (lookup_statedTexts_function r level logger p) " function="
  have text {name own : String}
      (found : (shownTexts r attributes level logger p).lookup name = some own) :
      (asTexts (shownTexts r attributes level logger p)).lookup name = some (.text own) := by
    rw [lookup_asTexts, found, Option.map_some]
  refine ⟨_, (Format.plainLine_eq_ok_iff r _ _).mpr ⟨timestamp, rating, source, message,
    text stamped, text rated, text logged, text told, rfl⟩, ?_⟩
  simp [plainOf?, stamped, rated, logged, told, group, function]

/-- The lines of a regular record under a time pattern. The JSON line has no control character and reads
back as an object of texts, one for each field that the record states, with the previews of its extras
laid over them. The plain line is the one that the fields of this object make up. -/
theorem line_encoding {r : Record} {attributes : List (String × Value)}
    (regular : r.Regular attributes) (pattern? : Option String)
    (clean : '\x00' ∉ (pattern?.getD "").toList) :
    ∃ (p : Particulars) (level logger json plain : String) (fields : List (String × String)),
      (Format.mk true pattern?).particulars r = .ok p ∧
      r.levelName = .text level ∧ r.logger = .text logger ∧
      fields = overlay (statedTexts r level logger p) (shownExtras attributes) ∧
      (namesOf fields).Nodup ∧
      (Format.mk true pattern?).line r = .ok json ∧
      (∀ c ∈ json.toList, 0x20 ≤ c.toNat) ∧
      Json.read? json = some (.object (fields.map fun e => (e.1, .text e.2))) ∧
      (Format.mk false pattern?).line r = .ok plain ∧
      plainOf? fields = some plain := by
  obtain ⟨level, rated⟩ := regular.level
  obtain ⟨logger, logged⟩ := regular.logger
  obtain ⟨p, told⟩ := regular.exists_particulars (Format.mk true pattern?) clean
  -- The particulars of a record are the same in both forms, which have the time pattern in common.
  have same : (Format.mk false pattern?).particulars r = .ok p := told
  have texts := shownFields_eq_asTexts regular rated logged p
  obtain ⟨json, written⟩ := Format.exists_jsonLine_asTexts (shownTexts r attributes level logger p)
  obtain ⟨plain, spoken, made⟩ := plainLine_shownTexts regular level logger p
  refine ⟨p, level, logger, json, plain, shownTexts r attributes level logger p, told, rated, logged,
    rfl, nodup_shownTexts regular rated logged p, ?_, ?_, ?_, ?_, made⟩
  · rw [Format.line_eq _ regular.named regular.distinct, told, ← written, ← texts]
    rfl
  · exact Json.printable_write (Format.of_jsonLine_eq_ok written)
  · rw [Format.read?_jsonLine written, asTexts, List.map_map]
    rfl
  · rw [Format.line_eq _ regular.named regular.distinct, same, ← spoken, ← texts]
    rfl

/-- Context, an extra under the name of a field, an attribute that is no extra, and a list. -/
def noisyAttributes : List (String × Value) :=
  [("group", .text "api"), ("level", .text "low"), ("taskName", .null),
    ("principals", .list [.text "é", .int 5])]

/-- A record whose texts hold quotes, a backslash and control characters. -/
def noisyRecord : Record where
  logger := .text "lambdaaccess.emitter"
  levelName := .text "WARNING"
  template := .text "Skipping \"%s\" %#06x\n"
  arguments := .tuple [.text "a\\b\x01", .int 255]
  created := .int 0
  milliseconds := .int 7
  raised? := some (.failure "ValueError" "bad\tname")
  attributes := Entries.ofNamed noisyAttributes

def noisyFields : List (String × String) :=
  [("timestamp", "1970-01-01 00:00:00,007"), ("level", "low"), ("logger", "lambdaaccess.emitter"),
    ("message", "Skipping \"a\\b\x01\" 0x00ff\n"), ("group", "api"), ("exception", "ValueError: bad\tname"),
    ("principals", "[\"é\", 5]")]

theorem line_encoding_noisy :
    noisyRecord.Regular noisyAttributes ∧ '\x00' ∉ ((none : Option String).getD "").toList ∧
      ∃ json, (Format.mk true none).line noisyRecord = .ok json ∧
        (∀ c ∈ json.toList, 0x20 ≤ c.toNat) ∧
        Json.read? json = some (.object (noisyFields.map fun e => (e.1, .text e.2))) ∧
        (Format.mk false none).line noisyRecord = .ok
          "[1970-01-01 00:00:00,007] low lambdaaccess.emitter group=api : Skipping \"a\\b\x01\" 0x00ff\n" := by
  have regular : noisyRecord.Regular noisyAttributes :=
    { message := ⟨_, rfl⟩
      level := ⟨_, rfl⟩
      logger := ⟨_, rfl⟩
      group := .inr ⟨_, rfl⟩
      function := .inl rfl
      named := rfl
      distinct := by decide
      created := ⟨_, rfl⟩
      milliseconds := ⟨_, rfl⟩
      raised := by
        rintro raised ⟨⟩
        exact ⟨_, rfl⟩ }
  have clean : '\x00' ∉ ((none : Option String).getD "").toList := by decide
  obtain ⟨p, level, logger, json, plain, fields, told, rated, logged, rfl, -, written, printable,
    read, spoken, made⟩ := line_encoding regular none clean
  have particulars : (Format.mk true none).particulars noisyRecord =
      .ok ⟨"1970-01-01 00:00:00,007", "Skipping \"a\\b\x01\" 0x00ff\n", some "ValueError: bad\tname"⟩ := rfl
  cases told.symm.trans particulars
  cases rated
  cases logged
  have fields : overlay (statedTexts noisyRecord "WARNING" "lambdaaccess.emitter"
      ⟨"1970-01-01 00:00:00,007", "Skipping \"a\\b\x01\" 0x00ff\n", some "ValueError: bad\tname"⟩)
      (shownExtras noisyAttributes) = noisyFields := rfl
  rw [fields] at read made
  cases made
  exact ⟨regular, clean, json, written, printable, read, spoken⟩

end AccessGroups.Log
