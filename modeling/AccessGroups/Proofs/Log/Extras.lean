import AccessGroups.Log.Session
import AccessGroups.Proofs.Log.Encoding
import AccessGroups.Proofs.Log.SharedExtras

/-!
Records of calls. Extras that are a mapping from names which a record has no use for become the attributes
of the call's record as they are, with the context among them. Such a record has a line if the arguments of
the call fit its template.
-/

set_option autoImplicit false

namespace AccessGroups.Log

/-- Named values that can be extras: no two have the same name, and no name is refused or that under which
a record is asked for its message. -/
structure Admissible (fields : List (String × Value)) : Prop where
  distinct : (namesOf fields).Nodup
  allowed : ∀ name ∈ namesOf fields, name ∉ refusedExtras ∧ name ≠ Record.messageSource

theorem Admissible.nil : Admissible [] := ⟨List.nodup_nil, nofun⟩

theorem Admissible.written {fields : List (String × Value)} (admissible : Admissible fields)
    (name : String) (allowed : name ∉ refusedExtras ∧ name ≠ Record.messageSource) (v : Value) :
    ∃ others, Log.written name v (Entries.ofNamed fields) = Entries.ofNamed others ∧
      Admissible others := by
  unfold Log.written
  split
  · refine ⟨overlay fields [(name, v)], Entries.put_ofNamed admissible.distinct (name, v), ?_, ?_⟩
    · exact nodup_overlay admissible.distinct (by simp)
    · intro other member
      rw [namesOf_overlay, List.mem_append] at member
      rcases member with own | new
      · exact admissible.allowed other own
      · obtain rfl : other = name := by simpa using (List.mem_filter.mp new).1
        exact allowed
  · exact ⟨fields, rfl, admissible⟩

theorem Admissible.bound {fields : List (String × Value)} (admissible : Admissible fields)
    (call : Invocation) :
    ∃ others, call.bound (Entries.ofNamed fields) = Entries.ofNamed others ∧ Admissible others := by
  obtain ⟨grouped, written, among⟩ := admissible.written "group" (by decide) call.about
  obtain ⟨others, done, still⟩ := among.written "function" (by decide) call.function
  exact ⟨others, by rw [Invocation.bound, written, done], still⟩

section

variable {fields before rest : List (String × Value)} {e : String × Value}

theorem not_mem_namesOf_before (distinct : (namesOf (before ++ e :: rest)).Nodup) :
    e.1 ∉ namesOf before := by
  rw [namesOf, List.map_append, List.map_cons, List.nodup_append] at distinct
  intro earlier
  exact distinct.2.2 e.1 earlier e.1 (by simp) rfl

theorem lookup_append_of_nodup (distinct : (namesOf (before ++ e :: rest)).Nodup) :
    (before ++ e :: rest).lookup e.1 = some e.2 := by
  have absent := (lookup_eq_none_iff_not_mem before e.1).mpr (not_mem_namesOf_before distinct)
  rw [List.lookup_append, absent, lookup_cons_eq_ite, if_pos rfl, Option.none_or]

/-- The next extra is added with the value that the extras have under its name. -/
theorem addExtra_next (admissible : Admissible fields) (split : fields = before ++ e :: rest) :
    addExtra (.map (Entries.ofNamed fields)) (Entries.ofNamed before) (.text e.1) =
      .ok (Entries.ofNamed (before ++ [e])) := by
  have distinct : (namesOf (before ++ e :: rest)).Nodup := split ▸ admissible.distinct
  have allowed := admissible.allowed e.1 (by simp [split, namesOf])
  have accepted : isNamed refusedExtras (.text e.1) = false := by simpa [isNamed] using allowed.1
  have found : Entries.get? (Entries.ofNamed fields) (.text e.1) = some e.2 := by
    rw [Entries.get?_ofNamed, split]
    exact lookup_append_of_nodup distinct
  have child : (Value.map (Entries.ofNamed fields)).child (.text e.1) = .ok e.2 := by
    simp only [Value.child, Value.hashable, ↓reduceIte, found]
  have absent : e.1 ∉ Entries.names (Entries.ofNamed before) := by
    rw [Entries.names_ofNamed]
    exact not_mem_namesOf_before distinct
  have free : Entries.has (Entries.ofNamed before) (.text e.1) = false := by
    rw [Bool.eq_false_iff, ne_eq, Entries.has_text_iff]
    exact absent
  simp only [addExtra, accepted, free, child, Value.hashable, Bool.not_true, Bool.or_false,
    Bool.false_eq_true, ↓reduceIte, Except.map]
  rw [Entries.put_of_not_mem_names _ _ _ absent, Entries.ofNamed_append]
  rfl

end

/-- One extra after another is added: those before have been, and those after are still to come. -/
theorem addExtra_all {fields : List (String × Value)} (admissible : Admissible fields)
    (after before : List (String × Value)) (split : fields = before ++ after) :
    ((Entries.ofNamed after).map Prod.fst).foldlM (addExtra (.map (Entries.ofNamed fields)))
      (Entries.ofNamed before) = .ok (Entries.ofNamed fields) := by
  induction after generalizing before with
  | nil =>
    rw [split, List.append_nil]
    rfl
  | cons e rest ih =>
    have next : fields = (before ++ [e]) ++ rest := by
      rw [split, List.append_assoc, List.singleton_append]
    rw [Entries.ofNamed_cons, List.map_cons, List.foldlM_cons, addExtra_next admissible split]
    exact ih (before ++ [e]) next

theorem extraAttributes_ofNamed {fields : List (String × Value)} (admissible : Admissible fields) :
    extraAttributes (.map (Entries.ofNamed fields)) = .ok (Entries.ofNamed fields) :=
  addExtra_all admissible fields [] rfl

/-! ## Calls with a line -/

/-- A call of which a line can be written: its arguments fit its template, calls take the arguments that it
names, its extras are left out or admissible, a failure that it reports has a text, what its record names as
its context are texts, and the clock shows a moment. -/
structure Call.Fits (call : Call) (now : Instant) : Prop where
  message : ∃ text, expand call.template (Arguments.pack call.arguments) = .ok text
  options : ∀ e ∈ call.named, ∃ name ∈ callOptions, e.1 = .text name
  count : isCount (argumentOr call.named "stacklevel" (.int 1)) = true
  extra : Entries.get? call.named (.text "extra") = none ∨
    ∃ fields, Entries.get? call.named (.text "extra") = some (.map (Entries.ofNamed fields)) ∧
      Admissible fields
  raised : ∀ raised, call.raised? = some raised → ∃ text, raised.text = .ok text
  context : ∀ r, call.record now = .ok r →
    (r.group = .null ∨ ∃ name, r.group = .text name) ∧
      (r.function = .null ∨ ∃ name, r.function = .text name)
  clock : ∃ moment, Moment.ofValue (.int now.seconds) = .ok moment

theorem Call.Fits.checkOptions {call : Call} {now : Instant} (fits : call.Fits now) :
    call.checkOptions = .ok () := by
  have taken : call.named.all (fun e => isNamed callOptions e.1) = true := by
    rw [List.all_eq_true]
    intro e member
    obtain ⟨name, known, key⟩ := fits.options e member
    rw [key]
    exact List.contains_iff_mem.mpr known
  rw [Call.checkOptions, taken, fits.count]
  rfl

theorem Call.Fits.exists_attributes {call : Call} {now : Instant} (fits : call.Fits now) :
    ∃ fields, Admissible fields ∧
      (contextExtra call.group call.named >>= extraAttributes) = .ok (Entries.ofNamed fields) := by
  have given : ∃ fields, Admissible fields ∧
      argumentOr call.named "extra" (.map []) = .map (Entries.ofNamed fields) := by
    rcases fits.extra with absent | ⟨fields, present, admissible⟩
    · exact ⟨[], .nil, by rw [argumentOr, absent]; rfl⟩
    · exact ⟨fields, admissible, by rw [argumentOr, present]; rfl⟩
  obtain ⟨fields, admissible, extra⟩ := given
  obtain ⟨others, bound, still⟩ := admissible.bound ⟨call.group, call.named⟩
  refine ⟨others, still, ?_⟩
  have context := Invocation.contextExtra_map ⟨call.group, call.named⟩ extra
  rw [context, bound]
  exact extraAttributes_ofNamed still

theorem Call.Fits.exists_regular {call : Call} {now : Instant} (fits : call.Fits now) :
    ∃ r attributes, call.record now = .ok r ∧ r.Regular attributes := by
  obtain ⟨fields, admissible, made⟩ := fits.exists_attributes
  obtain ⟨extra, bound, attributes⟩ := bind_eq_ok_iff.mp made
  have recorded : call.record now = .ok (call.recordWith now (Entries.ofNamed fields)) := by
    simp only [Call.record, bound, fits.checkOptions, attributes, bind, Except.bind]
    rfl
  have visible : Entries.has (Entries.ofNamed fields) (.text Record.messageSource) = false := by
    rw [Bool.eq_false_iff, ne_eq, Entries.has_text_iff, Entries.names_ofNamed]
    exact fun member => (admissible.allowed _ member).2 rfl
  obtain ⟨text, expanded⟩ := fits.message
  have told : (call.recordWith now (Entries.ofNamed fields)).message = .ok text := by
    rw [Record.message, Call.recordWith, visible]
    exact expanded
  obtain ⟨group, function⟩ := fits.context _ recorded
  exact ⟨_, fields, recorded,
    { message := ⟨text, told⟩
      level := ⟨_, rfl⟩
      logger := ⟨_, rfl⟩
      group
      function
      named := rfl
      distinct := admissible.distinct
      created := fits.clock
      milliseconds := ⟨_, rfl⟩
      raised := fits.raised }⟩

theorem Record.Regular.exists_line {r : Record} {attributes : List (String × Value)}
    (regular : r.Regular attributes) (json : Bool) :
    ∃ line, (Format.mk json none).line r = .ok line := by
  obtain ⟨level, rated⟩ := regular.level
  obtain ⟨logger, logged⟩ := regular.logger
  have clean : '\x00' ∉ ((none : Option String).getD "").toList := by decide
  obtain ⟨p, told⟩ := regular.exists_particulars (Format.mk json none) clean
  have texts := shownFields_eq_asTexts regular rated logged p
  rw [Format.line_eq _ regular.named regular.distinct, told]
  simp only [bind, Except.bind, texts]
  cases json with
  | true => exact Format.exists_jsonLine_asTexts (shownTexts r attributes level logger p)
  | false =>
    obtain ⟨plain, spoken, -⟩ := plainLine_shownTexts regular level logger p
    exact ⟨plain, spoken⟩

theorem Call.Fits.exists_line {call : Call} {now : Instant} (fits : call.Fits now) (json : Bool) :
    ∃ r line, call.record now = .ok r ∧ (Format.mk json none).line r = .ok line := by
  obtain ⟨r, attributes, made, regular⟩ := fits.exists_regular
  obtain ⟨line, written⟩ := regular.exists_line json
  exact ⟨r, line, made, written⟩

end AccessGroups.Log
