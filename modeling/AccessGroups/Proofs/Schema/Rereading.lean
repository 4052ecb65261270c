import AccessGroups.Proofs.Schema.Directive
import AccessGroups.Proofs.Value.Overlay

/-!
Reading again what was read. What a check reads is written out in a form that the check reads as itself:
texts as texts, numbers as numbers, a single role as a single role. An accepted access block, written out
with either spelling of its fields, is therefore accepted again and read as the same block.
-/

set_option autoImplicit false

namespace AccessGroups

namespace Checked

variable {α β : Type}

theorem all_eq_ok {checks : List (Checked α)} {as : List α}
    (each : List.Forall₂ (fun check a => check = .ok a) checks as) : all checks = .ok as := by
  induction each with
  | nil => rfl
  | cons first others ih => simp only [all, first, ih, both, Except.map]

theorem firstOf_of_ok {label : String} {check : Checked α} {rest : List (String × Checked α)} {a : α}
    (fits : check = .ok a) : firstOf ((label, check) :: rest) = .ok a := by
  simp only [firstOf, fits]

theorem firstOf_of_error {label : String} {check : Checked α} {rest : List (String × Checked α)}
    {issues : List Issue} {a : α} (refused : check = .error issues) (later : firstOf rest = .ok a) :
    firstOf ((label, check) :: rest) = .ok a := by
  simp only [firstOf, refused, later]

end Checked

namespace Schema

variable {α : Type}

/-! ## Lists and mappings -/

theorem checkItems_written {check : Value → Checked α} {write : α → Value} {as : List α}
    (each : ∀ a ∈ as, check (write a) = .ok a) (index : Nat) :
    List.Forall₂ (fun item a => item = .ok a) (checkItems check index (as.map write)) as := by
  induction as generalizing index with
  | nil => exact .nil
  | cons a rest ih =>
    have first : Checked.under (.int index) (check (write a)) = .ok a := by
      rw [Checked.under_eq_ok_iff]
      exact each a List.mem_cons_self
    exact .cons first (ih (fun b member => each b (List.mem_cons_of_mem _ member)) (index + 1))

/-- A list of items that are read as what they were written from is read so too. -/
theorem checkList_written (check : Value → Checked α) {write : α → Value} {as : List α}
    (each : ∀ a ∈ as, check (write a) = .ok a) :
    checkList check (.list (as.map write)) = .ok as :=
  Checked.all_eq_ok (checkItems_written each 0)

def keyed (named : List (String × α)) : Entries α := named.map fun e => (.text e.1, e.2)

theorem names_keyed (named : List (String × α)) : (keyed named).names = namesOf named := by
  induction named with
  | nil => rfl
  | cons e rest ih => exact congrArg (e.1 :: ·) ih

theorem distinct_keyed {named : List (String × α)} (distinct : (namesOf named).Nodup) :
    (keyed named).Distinct := by
  unfold Entries.Distinct keyed
  rw [List.pairwise_map]
  refine (List.pairwise_map.mp distinct).imp fun different => ?_
  simpa using different

theorem textKeyed_append_singleton (named : List (String × α)) (last : String × α) :
    textKeyed (named ++ [last]) = Entries.put (textKeyed named) (.text last.1) last.2 := by
  simp only [textKeyed, Entries.ofList, List.map_append, List.map_cons, List.map_nil,
    List.foldl_append, List.foldl_cons, List.foldl_nil]

theorem put_keyed_of_not_mem {named : List (String × α)} {e : String × α}
    (absent : e.1 ∉ namesOf named) :
    Entries.put (keyed named) (.text e.1) e.2 = keyed (named ++ [e]) := by
  rw [Entries.put_of_not_mem_names _ _ _ (by rwa [names_keyed]), keyed, keyed, List.map_append]
  rfl

/-- A value that is put under a name which is there takes the place of the one under it. -/
theorem put_keyed_of_mem {named : List (String × α)} (distinct : (namesOf named).Nodup)
    {e : String × α} (present : e.1 ∈ namesOf named) :
    Entries.put (keyed named) (.text e.1) e.2 =
      keyed (named.map fun f => (f.1, if f.1 = e.1 then e.2 else f.2)) := by
  have taken : Entries.has (keyed named) (.text e.1) = true := by
    rwa [Entries.has_text_iff, names_keyed]
  obtain ⟨old, found⟩ := Option.isSome_iff_exists.mp taken
  rw [Entries.put_eq_map (distinct_keyed distinct) (fun _ => e.2) rfl found, keyed, keyed,
    List.map_map, List.map_map]
  refine List.map_congr_left fun f _ => ?_
  by_cases same : f.1 = e.1 <;> simp [same]

theorem textKeyed_of_nodup {named : List (String × α)} (distinct : (namesOf named).Nodup) :
    textKeyed named = keyed named := by
  induction named using List.reverseRecOn with
  | nil => rfl
  | append_singleton rest e ih =>
    rw [namesOf, List.map_append, List.nodup_append] at distinct
    have absent : e.1 ∉ namesOf rest := by
      intro present
      exact distinct.2.2 e.1 present e.1 (by simp) rfl
    rw [textKeyed_append_singleton, ih distinct.1, put_keyed_of_not_mem absent]

/-- Of entries under texts, one is kept for each text. -/
theorem exists_keyed (named : List (String × α)) :
    ∃ kept, (namesOf kept).Nodup ∧ textKeyed named = keyed kept ∧ ∀ e ∈ kept, e ∈ named := by
  induction named using List.reverseRecOn with
  | nil => exact ⟨[], List.nodup_nil, rfl, nofun⟩
  | append_singleton rest e ih =>
    obtain ⟨kept, distinct, same, subset⟩ := ih
    rw [textKeyed_append_singleton, same]
    by_cases present : e.1 ∈ namesOf kept
    · refine ⟨_, ?_, put_keyed_of_mem distinct present, ?_⟩
      · rwa [namesOf_map fun name v => if name = e.1 then e.2 else v]
      · intro f member
        obtain ⟨old, among, rfl⟩ := List.mem_map.mp member
        by_cases here : old.1 = e.1
        · simp [here]
        · simpa [here] using Or.inl (subset old among)
    · refine ⟨kept ++ [e], ?_, put_keyed_of_not_mem present, ?_⟩
      · rw [namesOf, List.map_append, List.nodup_append]
        refine ⟨distinct, by simp, ?_⟩
        rintro name among _ member rfl
        obtain rfl : name = e.1 := by simpa using member
        exact present among
      · intro f member
        rcases List.mem_append.mp member with earlier | last
        · exact List.mem_append_left _ (subset f earlier)
        · exact List.mem_append_right _ last

theorem checkEntries_written {check : Value → Checked α} {write : α → Value}
    {named : List (String × α)} (each : ∀ e ∈ named, check (write e.2) = .ok e.2) :
    List.Forall₂ (fun entry e => entry = .ok e)
      ((keyed (named.map fun e => (e.1, write e.2))).map (checkEntry check)) named := by
  induction named with
  | nil => exact .nil
  | cons e rest ih =>
    have first : checkEntry check (.text e.1, write e.2) = .ok (e.1, e.2) := by
      simp only [checkEntry, Checked.under_eq_ok_iff, Checked.both_eq_ok_iff]
      exact ⟨rfl, each e List.mem_cons_self⟩
    exact .cons first (ih fun f member => each f (List.mem_cons_of_mem _ member))

/-- A mapping from distinct texts to values that are read as what they were written from is read so
too. -/
theorem checkMapping_written (check : Value → Checked α) (write : α → Value)
    {named : List (String × α)} (distinct : (namesOf named).Nodup)
    (each : ∀ e ∈ named, check (write e.2) = .ok e.2) :
    checkMapping check (.map (keyed (named.map fun e => (e.1, write e.2)))) = .ok (keyed named) := by
  rw [checkMapping, Checked.all_eq_ok (checkEntries_written each), ← textKeyed_of_nodup distinct]
  rfl

/-! ## Principals -/

/-- A form of a principal as it is read: a reference has distinct names. -/
inductive PrincipalForm.Settled : PrincipalForm → Prop
  | text (s : String) : Settled (.text s)
  | number (n : Int) : Settled (.number n)
  | reference {named : List (String × Value)} (distinct : (namesOf named).Nodup) :
      Settled (.reference (keyed named))

theorem settled_of_reference {v : Value} {entries : Entries Value}
    (read : checkMapping .ok v = .ok entries) : (PrincipalForm.reference entries).Settled := by
  obtain ⟨-, named, -, rfl, -⟩ := of_checkMapping read
  obtain ⟨kept, distinct, same, -⟩ := exists_keyed named
  rw [same]
  exact .reference distinct

theorem checkMapping_reference {named : List (String × Value)} (distinct : (namesOf named).Nodup) :
    checkMapping .ok (.map (keyed named)) = .ok (keyed named) := by
  have written := checkMapping_written .ok id distinct fun _ _ => rfl
  simpa using written

theorem PrincipalForm.settled_of_check {v : Value} {form : PrincipalForm}
    (read : check v = .ok form) : form.Settled := by
  obtain ⟨branch, member, passed⟩ := Checked.of_firstOf_eq_ok read
  simp only [List.mem_cons, List.not_mem_nil, or_false] at member
  rcases member with rfl | rfl | rfl
  · obtain ⟨s, -, rfl⟩ := Checked.of_map_eq_ok passed
    exact .text s
  · obtain ⟨n, -, rfl⟩ := Checked.of_map_eq_ok passed
    exact .number n
  · obtain ⟨entries, mapped, rfl⟩ := Checked.of_map_eq_ok passed
    exact settled_of_reference mapped

theorem PrincipalForm.check_toValue {form : PrincipalForm} (settled : form.Settled) :
    check form.toValue = .ok form := by
  cases settled with
  | text s => rfl
  | number n => rfl
  | reference distinct =>
    -- A mapping is neither a text nor a number.
    refine Checked.firstOf_of_error rfl (Checked.firstOf_of_error rfl (Checked.firstOf_of_ok ?_))
    simp only [toValue, checkMapping_reference distinct, Except.map]

/-- Principals as they are read. -/
inductive Principals.Settled : Principals → Prop
  | one {form : PrincipalForm} (single : form.Settled) : Settled (.one form)
  | many {forms : List PrincipalForm} (each : ∀ form ∈ forms, form.Settled) : Settled (.many forms)

theorem Principals.settled_of_check {v : Value} {principals : Principals}
    (read : check v = .ok principals) : principals.Settled := by
  obtain ⟨branch, member, passed⟩ := Checked.of_firstOf_eq_ok read
  simp only [List.mem_cons, List.not_mem_nil, or_false] at member
  rcases member with rfl | rfl | rfl | rfl
  · obtain ⟨s, -, rfl⟩ := Checked.of_map_eq_ok passed
    exact .one (.text s)
  · obtain ⟨n, -, rfl⟩ := Checked.of_map_eq_ok passed
    exact .one (.number n)
  · obtain ⟨entries, mapped, rfl⟩ := Checked.of_map_eq_ok passed
    exact .one (settled_of_reference mapped)
  · obtain ⟨forms, listed, rfl⟩ := Checked.of_map_eq_ok passed
    refine .many fun form among => ?_
    obtain ⟨item, -, checked⟩ := exists_left_of_forall₂ (of_checkList listed) form among
    exact PrincipalForm.settled_of_check checked

theorem Principals.check_toValue {principals : Principals} (settled : principals.Settled) :
    check principals.toValue = .ok principals := by
  cases settled with
  | one single =>
    cases single with
    | text s => rfl
    | number n => rfl
    | reference distinct =>
      refine Checked.firstOf_of_error rfl (Checked.firstOf_of_error rfl (Checked.firstOf_of_ok ?_))
      simp only [toValue, PrincipalForm.toValue, checkMapping_reference distinct, Except.map]
  | many each =>
    -- A list is none of the three forms of a single principal.
    refine Checked.firstOf_of_error rfl (Checked.firstOf_of_error rfl
      (Checked.firstOf_of_error rfl (Checked.firstOf_of_ok ?_)))
    have listed := checkList_written PrincipalForm.check fun form among =>
      PrincipalForm.check_toValue (each form among)
    simp only [toValue, listed, Except.map]

/-! ## Records -/

/-- A way to spell the fields of a record: the names inside the record, or those in documents. -/
inductive Spelling : (FieldName → String) → Prop
  | inner : Spelling FieldName.inner
  | outer : Spelling FieldName.outer

theorem required_of_given {es : Entries Value} {field : FieldName} {check : Value → Checked α}
    {given : String × Value} {a : α} (found : field.given? es = some given)
    (read : check given.2 = .ok a) : required es field check = .ok a := by
  simp only [required, found, read, Checked.under]

theorem optional_of_given {es : Entries Value} {field : FieldName} {check : Value → Checked α}
    {given : String × Value} {default a : α} (found : field.given? es = some given)
    (read : check given.2 = .ok a) : optional es field default check = .ok a := by
  simp only [optional, found, read, Checked.under]

theorem checkExtras_of_none {fields : List FieldName} {es : Entries Value}
    (none : extraEntries fields es = []) : checkExtras .forbidden fields es = .ok [] := by
  simp only [checkExtras, none, List.map_nil, Checked.all]

theorem checkBounded_int {least greatest n : Int} (above : least ≤ n) (below : n ≤ greatest) :
    checkBounded least greatest (.int n) = .ok n := by
  simp only [checkBounded, checkInteger]
  rw [if_neg (by omega), if_neg (by omega)]

/-- A role as it is read. -/
structure Role.Settled (r : Role) : Prop where
  principals : r.principals.Settled
  least : Template.leastDuration ≤ r.maxSessionDuration
  greatest : r.maxSessionDuration ≤ Template.greatestDuration

theorem Role.settled_of_check {v : Value} {r : Role} (read : check v = .ok r) : r.Settled := by
  cases v with
  | map es =>
    have bounds := duration_bounds read
    obtain ⟨⟨name, principals, tagSession, duration, extras⟩, passed, rfl⟩ :=
      Checked.of_map_eq_ok read
    simp only [Checked.both_eq_ok_iff] at passed
    obtain ⟨given, -, checked⟩ := of_required passed.2.1
    exact ⟨Principals.settled_of_check checked, bounds.1, bounds.2⟩
  | _ => cases read

theorem Role.check_of_given {es : Entries Value} {r : Role} (settled : r.Settled)
    {named governed tagged timed : String}
    (name : nameField.given? es = some (named, .text r.name))
    (principals : principalsField.given? es = some (governed, r.principals.toValue))
    (tagSession : tagSessionField.given? es = some (tagged, .bool r.allowTagSession))
    (duration : durationField.given? es = some (timed, .int r.maxSessionDuration))
    (closed : extraEntries fields es = []) : check (.map es) = .ok r := by
  have bounded := checkBounded_int settled.least settled.greatest
  have text : checkText (.text r.name) = .ok r.name := rfl
  have truth : checkBoolean (.bool r.allowTagSession) = .ok r.allowTagSession := rfl
  simp only [check, required_of_given name text,
    required_of_given principals (Principals.check_toValue settled.principals),
    optional_of_given tagSession truth, optional_of_given duration bounded,
    checkExtras_of_none closed, Checked.both, Except.map]

theorem Role.check_toValue {r : Role} (settled : r.Settled) {spell : FieldName → String}
    (spelling : Spelling spell) : check (r.toValue spell) = .ok r := by
  cases spelling with
  | inner => exact check_of_given settled rfl rfl rfl rfl rfl
  | outer => exact check_of_given settled rfl rfl rfl rfl rfl

/-- The roles of a group as they are read. -/
inductive Roles.Settled : Roles → Prop
  | one {role : Role} (single : role.Settled) : Settled (.one role)
  | many {roles : List Role} (each : ∀ role ∈ roles, role.Settled) : Settled (.many roles)

theorem Roles.settled_of_check {v : Value} {roles : Roles} (read : check v = .ok roles) :
    roles.Settled := by
  obtain ⟨branch, member, passed⟩ := Checked.of_firstOf_eq_ok read
  simp only [List.mem_cons, List.not_mem_nil, or_false] at member
  rcases member with rfl | rfl
  · obtain ⟨role, checked, rfl⟩ := Checked.of_map_eq_ok passed
    exact .one (Role.settled_of_check checked)
  · obtain ⟨roles, listed, rfl⟩ := Checked.of_map_eq_ok passed
    refine .many fun role among => ?_
    obtain ⟨item, -, checked⟩ := exists_left_of_forall₂ (of_checkList listed) role among
    exact Role.settled_of_check checked

theorem Roles.check_toValue {roles : Roles} (settled : roles.Settled) {spell : FieldName → String}
    (spelling : Spelling spell) : check (roles.toValue spell) = .ok roles := by
  cases settled with
  | one single =>
    refine Checked.firstOf_of_ok ?_
    simp only [toValue, Role.check_toValue single spelling, Except.map]
  | many each =>
    refine Checked.firstOf_of_error rfl (Checked.firstOf_of_ok ?_)
    have listed := checkList_written Role.check fun role among =>
      Role.check_toValue (each role among) spelling
    simp only [toValue, listed, Except.map]

theorem Policy.settled_of_check {v : Value} {policy : Policy} (read : check v = .ok policy) :
    policy.principals.Settled := by
  cases v with
  | map es =>
    obtain ⟨principals, passed, rfl⟩ := Checked.of_map_eq_ok read
    obtain ⟨given, -, checked⟩ := of_required passed
    exact Principals.settled_of_check checked
  | _ => cases read

theorem Spelling.single {spell : FieldName → String} (spelling : Spelling spell) (name : String) :
    spell (.single name) = name := by
  cases spelling <;> rfl

theorem Policy.check_toValue {policy : Policy} (settled : policy.principals.Settled)
    {spell : FieldName → String} (spelling : Spelling spell) :
    check (policy.toValue spell) = .ok policy := by
  have given : principalsField.given? [(.text "principals", policy.principals.toValue)] =
      some ("principals", policy.principals.toValue) := rfl
  have read := required_of_given given (Principals.check_toValue settled)
  simp only [toValue, principalsField, spelling.single, Value.object, List.map_cons, List.map_nil]
  simp only [check, read, Except.map]

/-- A group as it is read. -/
structure Group.Settled (g : Group) : Prop where
  grants : g.policy.isSome = true ∨ g.role.isSome = true
  policy : ∀ policy, g.policy = some policy → policy.principals.Settled
  role : ∀ roles, g.role = some roles → roles.Settled

theorem checkNullable_eq_some {check : Value → Checked α} {v : Value} {a : α}
    (read : checkNullable check v = .ok (some a)) : check v = .ok a := by
  unfold checkNullable at read
  split at read
  · cases read
  · obtain ⟨b, passed, same⟩ := Checked.of_map_eq_ok read
    rwa [← Option.some.inj same]

theorem of_optional_nullable {es : Entries Value} {field : FieldName} {check : Value → Checked α}
    {a : α} (read : optional es field none (checkNullable check) = .ok (some a)) :
    ∃ v, check v = .ok a := by
  rcases of_optional read with ⟨-, absent⟩ | ⟨given, -, passed⟩
  · cases absent
  · exact ⟨given.2, checkNullable_eq_some passed⟩

theorem Group.settled_of_check {v : Value} {g : Group} (read : check v = .ok g) : g.Settled := by
  cases v with
  | map es =>
    obtain ⟨⟨policy, role, extras⟩, passed, granted⟩ := Checked.of_bind_eq_ok read
    simp only [Checked.both_eq_ok_iff] at passed
    obtain rfl : ⟨policy, role⟩ = g := eq_of_checkGrants granted
    refine ⟨?_, ?_, ?_⟩
    · unfold checkGrants at granted
      cases policy <;> cases role <;> simp at granted ⊢
      cases granted
    · rintro policy rfl
      obtain ⟨declared, checked⟩ := of_optional_nullable passed.1
      exact Policy.settled_of_check checked
    · rintro roles rfl
      obtain ⟨declared, checked⟩ := of_optional_nullable passed.2.1
      exact Roles.settled_of_check checked
  | _ => cases read

/-- A part that is written out, or `null` in place of none, is read as it was. -/
theorem checkNullable_written {check : Value → Checked α} {write : α → Value} {part : Option α}
    (read : ∀ a, part = some a → check (write a) = .ok a)
    (present : ∀ a, write a ≠ .null) :
    checkNullable check ((part.map write).getD .null) = .ok part := by
  cases part with
  | none => rfl
  | some a =>
    simp only [Option.map_some, Option.getD_some]
    unfold checkNullable
    split
    · rename_i missing
      exact absurd missing (present a)
    · rw [read a rfl]
      rfl

theorem Roles.toValue_ne_null (spell : FieldName → String) (roles : Roles) :
    roles.toValue spell ≠ .null := by
  cases roles <;> simp [toValue, Role.toValue, Value.object]

theorem Group.check_toValue {g : Group} (settled : g.Settled) {spell : FieldName → String}
    (spelling : Spelling spell) : check (g.toValue spell) = .ok g := by
  have policy : checkNullable Policy.check ((g.policy.map (Policy.toValue spell)).getD .null) =
      .ok g.policy := by
    refine checkNullable_written (fun policy given => ?_) fun policy => by
      simp [Policy.toValue, Value.object]
    exact Policy.check_toValue (settled.policy policy given) spelling
  have role : checkNullable Roles.check ((g.role.map (Roles.toValue spell)).getD .null) =
      .ok g.role := by
    refine checkNullable_written (fun roles given => ?_) (Roles.toValue_ne_null spell)
    exact Roles.check_toValue (settled.role roles given) spelling
  have granted : checkGrants ⟨g.policy, g.role⟩ = .ok g := by
    have grants : ¬ (g.policy.isNone && g.role.isNone) = true := by
      have given := settled.grants
      cases absent : g.policy <;> cases missing : g.role <;> simp_all
    rw [checkGrants, if_neg grants]
  simp only [toValue, policyField, roleField, spelling.single, Value.object, List.map_cons,
    List.map_nil]
  generalize (g.policy.map (Policy.toValue spell)).getD .null = p at policy ⊢
  generalize (g.role.map (Roles.toValue spell)).getD .null = r at role ⊢
  have first : policyField.given? [(.text "policy", p), (.text "role", r)] = some ("policy", p) := rfl
  have second : roleField.given? [(.text "policy", p), (.text "role", r)] = some ("role", r) := rfl
  have closed : extraEntries fields [(.text "policy", p), (.text "role", r)] = [] := rfl
  simp only [check, optional_of_given first policy, optional_of_given second role,
    checkExtras_of_none closed, Checked.both, Except.bind, granted]

/-- An access block as it is read. -/
structure Access.Settled (m : Access) : Prop where
  nonempty : m.groups ≠ []
  keyed : ∃ named : List (String × Group), (namesOf named).Nodup ∧ m.groups = keyed named
  groups : ∀ e ∈ m.groups, e.2.Settled

theorem Access.settled_of_check {v : Value} {m : Access} (read : check v = .ok m) : m.Settled := by
  cases v with
  | map es =>
    obtain ⟨⟨groups, extras⟩, passed, rfl⟩ := Checked.of_map_eq_ok read
    rw [Checked.both_eq_ok_iff] at passed
    obtain ⟨given, -, grouped⟩ := of_required passed.1
    obtain ⟨found, mapped, counted⟩ := Checked.of_bind_eq_ok grouped
    obtain ⟨declared, named, -, rfl, each⟩ := of_checkMapping mapped
    obtain ⟨kept, distinct, same, subset⟩ := exists_keyed named
    split at counted
    · cases counted
    · rename_i some
      obtain rfl := Except.ok.inj counted
      refine ⟨by simpa using some, ⟨kept, distinct, same⟩, ?_⟩
      rw [same]
      intro e member
      obtain ⟨named, among, rfl⟩ := List.mem_map.mp member
      obtain ⟨declaration, -, -, checked⟩ := exists_left_of_forall₂ each named (subset named among)
      exact Group.settled_of_check checked
  | _ => cases read

theorem Access.check_toValue {m : Access} (settled : m.Settled) {spell : FieldName → String}
    (spelling : Spelling spell) : check (m.toValue spell) = .ok m := by
  obtain ⟨groups⟩ := m
  obtain ⟨named, distinct, rfl⟩ := settled.keyed
  have written : (keyed named).map (fun e => (e.1, e.2.toValue spell)) =
      keyed (named.map fun e => (e.1, e.2.toValue spell)) := by
    simp only [keyed, List.map_map]
    rfl
  have mapped : checkMapping Group.check (.map (keyed (named.map fun e => (e.1, e.2.toValue spell)))) =
      .ok (keyed named) := by
    refine checkMapping_written Group.check (Group.toValue spell) distinct fun e member => ?_
    exact Group.check_toValue (settled.groups (.text e.1, e.2) (List.mem_map_of_mem member)) spelling
  have counted : (keyed named).isEmpty = false := by
    simpa using settled.nonempty
  simp only [toValue, groupsField, spelling.single, Value.object, List.map_cons, List.map_nil,
    written]
  generalize Value.map (keyed (named.map fun e => (e.1, e.2.toValue spell))) = v at mapped ⊢
  have read : checkGroups v = .ok (keyed named) := by
    simp only [checkGroups, mapped, Except.bind, counted, Bool.false_eq_true, ↓reduceIte]
  have given : groupsField.given? [(.text "groups", v)] = some ("groups", v) := rfl
  have closed : extraEntries fields [(.text "groups", v)] = [] := rfl
  simp only [check, required_of_given given read, checkExtras_of_none closed, Checked.both, Except.map]

theorem Access.validate_toValue {m : Access} (settled : m.Settled) {spell : FieldName → String}
    (spelling : Spelling spell) : validate (m.toValue spell) = .ok m := by
  rw [validate, check_toValue settled spelling]
  rfl

theorem Group.settled_of_mem_roles {g : Group} (settled : g.Settled) {role : Role}
    (member : role ∈ g.roles) : role.Settled := by
  obtain ⟨policy, roles⟩ := g
  cases roles with
  | none => cases member
  | some roles =>
    have read : roles.Settled := settled.role roles rfl
    cases read with
    | one single => rwa [List.mem_singleton.mp member]
    | many each => exact each role member

/-- An accepted access block, written out with either spelling of its fields, is accepted again and read
as the same block. It has a group, each of its groups a policy or a role, and each role, as it is written
out, a whole number of seconds between an hour and twelve and a truth value. -/
theorem Access.validate_idempotent {v : Value} {m : Access} (accepted : validate v = .ok m) :
    validate (m.toValue FieldName.inner) = .ok m ∧ validate (m.toValue FieldName.outer) = .ok m ∧
      m.groups ≠ [] ∧
      ∀ e ∈ m.groups, (e.2.policy.isSome = true ∨ e.2.role.isSome = true) ∧
        ∀ role ∈ e.2.roles, ∃ (seconds : Int) (tags : Bool),
          (role.toValue FieldName.inner).member "max_session_duration" = .int seconds ∧
          3600 ≤ seconds ∧ seconds ≤ 43200 ∧
          (role.toValue FieldName.inner).member "allow_tag_session" = .bool tags := by
  have settled : m.Settled := settled_of_check (eq_ok_of_mapError accepted)
  refine ⟨validate_toValue settled .inner, validate_toValue settled .outer, settled.nonempty, ?_⟩
  intro e member
  have group : e.2.Settled := settled.groups e member
  refine ⟨group.grants, fun role among => ?_⟩
  have directive : role.Settled := Group.settled_of_mem_roles group among
  exact ⟨role.maxSessionDuration, role.allowTagSession, rfl, directive.least, directive.greatest, rfl⟩

/-- A group with a truth value as its principal and a note beside it, and one of two roles in a tuple:
the first has its duration and its truth value as texts, the second a number as its truth value and a
reference among its principals. -/
def Access.spelledBlock : Value :=
  .object [("groups", .object [
    ("readers", .object [("policy", .object [("principals", .bool true), ("note", .text "x")])]),
    ("writers", .object [("role", .tuple [
      .object [("name", .text "r"), ("principals", .text "123456789012"),
        ("max_session_duration", .text "7200"), ("allow_tag_session", .text "Yes")],
      .object [("name", .text "s"),
        ("principals", .tuple [.int 5, .object [("Ref", .text "Caller")]]),
        ("maxSessionDuration", .int 43200), ("allowTagSession", .int 0)]])])])]

def Access.plainBlock : Access where
  groups :=
    [(.text "readers", ⟨some ⟨.one (.number 1)⟩, none⟩),
      (.text "writers", ⟨none, some (.many
        [⟨"r", .one (.text "123456789012"), true, 7200⟩,
          ⟨"s", .many [.number 5, .reference [(.text "Ref", .text "Caller")]], false, 43200⟩])⟩)]

theorem Access.validate_idempotent_spelled :
    validate spelledBlock = .ok plainBlock ∧
      validate (plainBlock.toValue FieldName.inner) = .ok plainBlock ∧
      validate (plainBlock.toValue FieldName.outer) = .ok plainBlock := by
  have accepted : validate spelledBlock = .ok plainBlock := rfl
  have again := validate_idempotent accepted
  exact ⟨accepted, again.1, again.2.1⟩

end Schema

end AccessGroups
