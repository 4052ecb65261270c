import AccessGroups.Log.Line
import AccessGroups.Proofs.Json.RoundTrip
import AccessGroups.Proofs.Value.Overlay

/-!
The fields of a record: its own ones, with the previews of its extras laid over them. A field that is
there from the start keeps its place, so that a line can be read off the fields by their names.
-/

set_option autoImplicit false

namespace AccessGroups.Log

theorem bind_eq_ok_iff {α β ε : Type} {result : Except ε α} {next : α → Except ε β} {b : β} :
    (result >>= next) = .ok b ↔ ∃ a, result = .ok a ∧ next a = .ok b := by
  cases result with
  | ok a =>
    constructor
    · intro bound
      exact ⟨a, rfl, bound⟩
    · rintro ⟨_, ⟨⟩, bound⟩
      exact bound
  | error cause =>
    constructor
    · intro bound
      cases bound
    · rintro ⟨_, ⟨⟩, _⟩

/-- The extras among the attributes, each with its preview. -/
def shownExtras (attributes : List (String × Value)) : List (String × String) :=
  (attributes.filter fun e => e.1 ∉ hiddenAttributes).map fun e => (e.1, preview e.2)

def asTexts (es : List (String × String)) : List (String × Value) :=
  es.map fun e => (e.1, .text e.2)

@[simp] theorem asTexts_append (es fs : List (String × String)) :
    asTexts (es ++ fs) = asTexts es ++ asTexts fs := List.map_append

@[simp] theorem namesOf_asTexts (es : List (String × String)) :
    namesOf (asTexts es) = namesOf es :=
  namesOf_map (fun _ => Value.text) es

theorem lookup_asTexts (es : List (String × String)) (name : String) :
    (asTexts es).lookup name = (es.lookup name).map .text :=
  lookup_map (fun _ => Value.text) es name

theorem nodup_shownExtras {attributes : List (String × Value)}
    (distinct : (namesOf attributes).Nodup) : (namesOf (shownExtras attributes)).Nodup := by
  rw [shownExtras, namesOf_map fun _ => preview]
  exact distinct.sublist (List.filter_sublist.map _)

theorem lookup_shownExtras (attributes : List (String × Value)) (name : String) :
    (shownExtras attributes).lookup name =
      if name ∈ hiddenAttributes then none else (attributes.lookup name).map preview := by
  rw [shownExtras, lookup_map fun _ => preview, lookup_filter fun name => name ∉ hiddenAttributes]
  by_cases hidden : name ∈ hiddenAttributes <;> simp [hidden]

namespace Record

variable {r : Record} {attributes : List (String × Value)}

theorem extras_of_named (named : r.attributes = Entries.ofNamed attributes) :
    r.extras = Entries.ofNamed (attributes.filter fun e => e.1 ∉ hiddenAttributes) := by
  rw [extras, named, Entries.ofNamed, List.filter_map]
  congr 1
  refine List.filter_congr fun e _ => ?_
  simp [isNamed]

def failure (r : Record) : Except Misuse (Option String) :=
  match r.raised? with
  | some raised => raised.text.map some
  | none => .ok none

end Record

/-- What a line says of a record in words of its own. -/
structure Particulars where
  timestamp : String
  message : String
  failure? : Option String

def Format.particulars (f : Format) (r : Record) : Except Misuse Particulars := do
  let timestamp ← f.timestamp r
  let message ← r.message
  let failure? ← r.failure
  return ⟨timestamp, message, failure?⟩

theorem Format.particulars_eq_ok_iff (f : Format) (r : Record) (p : Particulars) :
    f.particulars r = .ok p ↔
      f.timestamp r = .ok p.timestamp ∧ r.message = .ok p.message ∧ r.failure = .ok p.failure? := by
  unfold particulars
  cases f.timestamp r with
  | error misuse => simp [bind, Except.bind]
  | ok timestamp =>
    cases r.message with
    | error misuse => simp [bind, Except.bind]
    | ok message =>
      cases r.failure with
      | error misuse => simp [bind, Except.bind]
      | ok failure? =>
        obtain ⟨stamped, told, failed⟩ := p
        simp [bind, Except.bind, pure, Except.pure]

def fieldIf (name : String) (v : Value) : List (String × Value) :=
  if v.truthy then [(name, v)] else []

/-- The fields of a record before its extras. -/
def Record.statedFields (r : Record) (p : Particulars) : List (String × Value) :=
  [("timestamp", .text p.timestamp), ("level", r.levelName), ("logger", r.logger),
      ("message", .text p.message)] ++
    fieldIf "group" r.group ++ fieldIf "function" r.function ++
    p.failure?.toList.map fun text => ("exception", .text text)

theorem Record.nodup_statedFields (r : Record) (p : Particulars) :
    (namesOf (r.statedFields p)).Nodup := by
  unfold statedFields fieldIf
  cases r.group.truthy <;> cases r.function.truthy <;> cases p.failure? <;> simp

def Record.shownFields (r : Record) (attributes : List (String × Value)) (p : Particulars) :
    List (String × Value) :=
  overlay (r.statedFields p) (asTexts (shownExtras attributes))

theorem Record.nodup_shownFields (r : Record) {attributes : List (String × Value)}
    (distinct : (namesOf attributes).Nodup) (p : Particulars) :
    (namesOf (r.shownFields attributes p)).Nodup := by
  refine nodup_overlay (r.nodup_statedFields p) ?_
  rw [namesOf_asTexts]
  exact nodup_shownExtras distinct

namespace Format

theorem entryIf_eq (name : String) (v : Value) :
    entryIf name v = Entries.ofNamed (fieldIf name v) := by
  unfold entryIf fieldIf
  split <;> rfl

theorem ofNamed_statedFields (r : Record) (p : Particulars) :
    Entries.ofNamed (r.statedFields p) =
      [(.text "timestamp", .text p.timestamp), (.text "level", r.levelName), (.text "logger", r.logger),
          (.text "message", .text p.message)] ++
        entryIf "group" r.group ++ entryIf "function" r.function ++
        p.failure?.toList.map fun text => (.text "exception", .text text) := by
  rw [Record.statedFields, entryIf_eq, entryIf_eq, Entries.ofNamed_append, Entries.ofNamed_append,
    Entries.ofNamed_append]
  cases p.failure? <;> rfl

theorem ownFields_eq (f : Format) (r : Record) :
    f.ownFields r = (f.particulars r).map fun p => Entries.ofNamed (r.statedFields p) := by
  simp only [ofNamed_statedFields, ownFields, particulars]
  cases f.timestamp r with
  | error misuse => rfl
  | ok timestamp =>
    cases r.message with
    | error misuse => rfl
    | ok message =>
      unfold Record.failure
      cases r.raised? with
      | none => rfl
      | some raised =>
        dsimp only
        cases raised.text <;> rfl

/-- The fields of a record with named attributes are those that it states, with its extras laid over
them. -/
theorem fields_eq (f : Format) {r : Record} {attributes : List (String × Value)}
    (named : r.attributes = Entries.ofNamed attributes) (distinct : (namesOf attributes).Nodup) :
    f.fields r = (f.particulars r).map fun p => Entries.ofNamed (r.shownFields attributes p) := by
  -- Putting the extras in with their previews is putting in the previews as named texts.
  have put (own : Entries Value) :
      r.extras.foldl (fun done e => Entries.put done e.1 (.text (preview e.2))) own =
        (Entries.ofNamed (asTexts (shownExtras attributes))).foldl
          (fun done e => Entries.put done e.1 e.2) own := by
    rw [Record.extras_of_named named, Entries.ofNamed, Entries.ofNamed, asTexts, shownExtras]
    simp only [List.foldl_map, List.map_map, Function.comp_def]
  have others : (namesOf (asTexts (shownExtras attributes))).Nodup := by
    rw [namesOf_asTexts]
    exact nodup_shownExtras distinct
  rw [fields, ownFields_eq]
  cases f.particulars r with
  | error misuse => rfl
  | ok p =>
    have laid := Entries.foldl_put_ofNamed (r.nodup_statedFields p) others
    exact congrArg Except.ok ((put _).trans laid)

theorem line_eq (f : Format) {r : Record} {attributes : List (String × Value)}
    (named : r.attributes = Entries.ofNamed attributes) (distinct : (namesOf attributes).Nodup) :
    f.line r = f.particulars r >>= fun p =>
      if f.json then jsonLine (Entries.ofNamed (r.shownFields attributes p))
      else plainLine r (Entries.ofNamed (r.shownFields attributes p)) := by
  rw [line, fields_eq f named distinct]
  cases f.particulars r <;> rfl

/-! ## Plain lines -/

theorem textField_eq_ok_iff (es : List (String × Value)) (name text : String) :
    textField (Entries.ofNamed es) name = .ok text ↔ es.lookup name = some (.text text) := by
  rw [textField, Entries.get?_ofNamed]
  split
  · rename_i s found
    rw [found]
    simp
  · rename_i other
    exact ⟨nofun, fun found => (other text found).elim⟩

def contextPart (mark : String) (v : Value) : String := if v.truthy then mark ++ v.display else ""

theorem intercalate_parts (r : Record) (timestamp level logger message : String) :
    " ".intercalate (["[" ++ timestamp ++ "]", level, logger] ++ contextText "group" r.group ++
        contextText "function" r.function ++ [": " ++ message]) =
      "[" ++ timestamp ++ "] " ++ level ++ " " ++ logger ++ contextPart " group=" r.group ++
        contextPart " function=" r.function ++ " : " ++ message := by
  have joined {a b c : String} (same : a ++ b = c) (s : String) : a ++ (b ++ s) = c ++ s := by
    rw [← String.append_assoc, same]
  have spaced : " " ++ ": " = " : " ∧ " " ++ "group=" = " group=" ∧
      " " ++ "function=" = " function=" := by
    decide
  unfold contextText contextPart
  cases r.group.truthy <;> cases r.function.truthy <;>
    simp [String.intercalate_cons_of_ne_nil, String.append_assoc, joined spaced.1, joined spaced.2.1,
      joined spaced.2.2]

/-- A plain line holds the first four fields of a record with its context before the message. -/
theorem plainLine_eq_ok_iff (r : Record) (es : List (String × Value)) (line : String) :
    plainLine r (Entries.ofNamed es) = .ok line ↔ ∃ timestamp level logger message : String,
      es.lookup "timestamp" = some (.text timestamp) ∧ es.lookup "level" = some (.text level) ∧
      es.lookup "logger" = some (.text logger) ∧ es.lookup "message" = some (.text message) ∧
      line = "[" ++ timestamp ++ "] " ++ level ++ " " ++ logger ++ contextPart " group=" r.group ++
        contextPart " function=" r.function ++ " : " ++ message := by
  simp only [plainLine, bind_eq_ok_iff, textField_eq_ok_iff, intercalate_parts, pure, Except.pure,
    Except.ok.injEq, eq_comm (b := line)]
  constructor
  · rintro ⟨timestamp, stamped, level, rated, logger, logged, message, told, rfl⟩
    exact ⟨timestamp, level, logger, message, stamped, rated, logged, told, rfl⟩
  · rintro ⟨timestamp, level, logger, message, stamped, rated, logged, told, rfl⟩
    exact ⟨timestamp, stamped, level, rated, logger, logged, message, told, rfl⟩

/-! ## JSON lines -/

theorem memberTrees_ofNamed (es : List (String × Value)) :
    Json.memberTrees (Entries.ofNamed es) = es.map fun e => (e.1, Json.tree e.2) := by
  induction es with
  | nil => rfl
  | cons e rest ih =>
    rw [Entries.ofNamed_cons, Json.memberTrees, ih]
    rfl

theorem of_jsonLine_eq_ok {fields : Entries Value} {line : String}
    (written : jsonLine fields = .ok line) : Json.write? (.map fields) = some line := by
  unfold jsonLine at written
  split at written
  · rename_i text found
    rw [found, Except.ok.inj written]
  · cases written

theorem read?_jsonLine {es : List (String × Value)} {line : String}
    (written : jsonLine (Entries.ofNamed es) = .ok line) :
    Json.read? line = some (.object (es.map fun e => (e.1, Json.tree e.2))) := by
  rw [Json.read?_write (of_jsonLine_eq_ok written), Json.tree, memberTrees_ofNamed]

theorem exists_entryChars?_asTexts (es : List (String × String)) :
    ∃ cs, Json.entryChars? (Entries.ofNamed (asTexts es)) = some cs := by
  induction es with
  | nil => exact ⟨[], rfl⟩
  | cons e rest ih =>
    obtain ⟨cs, written⟩ := ih
    exact Json.exists_entryChars?_cons rfl rfl written

theorem exists_jsonLine_asTexts (es : List (String × String)) :
    ∃ line, jsonLine (Entries.ofNamed (asTexts es)) = .ok line := by
  obtain ⟨cs, written⟩ := exists_entryChars?_asTexts es
  refine ⟨String.ofList ('\x7b' :: cs ++ ['\x7d']), ?_⟩
  simp [jsonLine, Json.write?, Json.chars?, written]

end Format

end AccessGroups.Log
