import AccessGroups.Proofs.Value.Merge
import AccessGroups.Schema.Reference

/-!
Documents without references. What inlining makes of a document is said by a relation that knows nothing
of how deep the definitions are open inside each other: a reference stands for what its definition is
inlined to, with its inlined siblings merged over it. Such a result refers to nothing and holds no
definitions, and inlining leaves it as it is.
-/

set_option autoImplicit false

namespace AccessGroups

/-- Not built from other values. -/
def Value.isScalar : Value → Bool
  | .list _ => false
  | .tuple _ => false
  | .map _ => false
  | _ => true

namespace Schema

/-- A value built from mappings, lists and scalars in which no mapping has both a reference and
definitions. -/
inductive Structured : Value → Prop
  | scalar {v : Value} (plain : v.isScalar = true) : Structured v
  | list {items : List Value} (each : ∀ item ∈ items, Structured item) : Structured (.list items)
  | map {es : Entries Value} (distinct : Entries.Distinct es) (keyed : Entries.Keyed es)
      (apart : (reference? es).isSome = true → Entries.get? es (.text definitionsKey) = none)
      (each : ∀ e ∈ es, Structured e.2) : Structured (.map es)

@[simp] theorem structured_text (s : String) : Structured (.text s) := .scalar rfl

@[simp] theorem structured_int (n : Int) : Structured (.int n) := .scalar rfl

@[simp] theorem structured_bool (b : Bool) : Structured (.bool b) := .scalar rfl

@[simp] theorem structured_null : Structured .null := .scalar rfl

@[simp] theorem structured_list_iff (items : List Value) :
    Structured (.list items) ↔ ∀ item ∈ items, Structured item := by
  constructor
  · intro structured
    cases structured with
    | scalar plain => cases plain
    | list each => exact each
  · exact .list

@[simp] theorem structured_map_iff (es : Entries Value) :
    Structured (.map es) ↔ Entries.Distinct es ∧ Entries.Keyed es ∧
      ((reference? es).isSome = true → Entries.get? es (.text definitionsKey) = none) ∧
      ∀ e ∈ es, Structured e.2 := by
  constructor
  · intro structured
    cases structured with
    | scalar plain => cases plain
    | map distinct keyed apart each => exact ⟨distinct, keyed, apart, each⟩
  · rintro ⟨distinct, keyed, apart, each⟩
    exact .map distinct keyed apart each

/-- A value built so in which no mapping, at any depth, has a reference or definitions. -/
inductive SelfContained : Value → Prop
  | scalar {v : Value} (plain : v.isScalar = true) : SelfContained v
  | list {items : List Value} (each : ∀ item ∈ items, SelfContained item) :
      SelfContained (.list items)
  | map {es : Entries Value} (distinct : Entries.Distinct es) (keyed : Entries.Keyed es)
      (noReference : reference? es = none)
      (noDefinitions : Entries.get? es (.text definitionsKey) = none)
      (each : ∀ e ∈ es, SelfContained e.2) : SelfContained (.map es)

def without (name : String) (es : Entries Value) : Entries Value :=
  es.filter fun e => !Value.same (.text name) e.1

/-- What a value is inlined to. -/
inductive Inlined (definitions : Entries Value) : Value → Value → Prop
  | scalar {v : Value} (plain : v.isScalar = true) : Inlined definitions v v
  | list {items inlined : List Value} (length : inlined.length = items.length)
      (each : ∀ p ∈ items.zip inlined, Inlined definitions p.1 p.2) :
      Inlined definitions (.list items) (.list inlined)
  | map {es inlined : Entries Value} (free : reference? es = none)
      (keys : Entries.keys inlined = Entries.keys (without definitionsKey es))
      (each : ∀ p ∈ (without definitionsKey es).zip inlined, Inlined definitions p.1.2 p.2.2) :
      Inlined definitions (.map es) (.map inlined)
  /-- The definition's entries, overridden by the siblings of the reference. -/
  | reference {es base siblings : Entries Value} {name : String} {body : Value}
      (refers : reference? es = some name)
      (defined : Entries.get? definitions (.text name) = some body)
      (definition : Inlined definitions body (.map base))
      (keys : Entries.keys siblings = Entries.keys (without referenceKey es))
      (each : ∀ p ∈ (without referenceKey es).zip siblings, Inlined definitions p.1.2 p.2.2) :
      Inlined definitions (.map es) (.map (Entries.merge base siblings))

theorem Inlined.exists_map {definitions es : Entries Value} {w : Value}
    (inlined : Inlined definitions (.map es) w) : ∃ base, w = .map base := by
  cases inlined with
  | scalar plain => cases plain
  | map _ _ _ => exact ⟨_, rfl⟩
  | reference _ _ _ _ _ => exact ⟨_, rfl⟩

/-! ## Entries by their keys -/

theorem without_sublist (name : String) (es : Entries Value) : (without name es).Sublist es :=
  List.filter_sublist

theorem get?_without_self (name : String) (es : Entries Value) :
    Entries.get? (without name es) (.text name) = none := by
  rw [Entries.get?_eq_none_iff]
  intro e member
  have kept := (List.mem_filter.mp member).2
  rw [Value.same_comm e.1 (.text name) rfl]
  simpa using kept

theorem get?_without_of_ne {name other : String} (different : name ≠ other) (es : Entries Value) :
    Entries.get? (without name es) (.text other) = Entries.get? es (.text other) := by
  induction es with
  | nil => rfl
  | cons e rest ih =>
    rw [without] at ih ⊢
    by_cases left : Value.same (.text name) e.1 = true
    · have elsewhere : Value.same e.1 (.text other) = false := by
        rw [(Value.text_same_iff name e.1).mp left, Value.same_text]
        exact beq_eq_false_iff_ne.mpr different
      rw [List.filter_cons_of_neg (by simp [left]), ih, Entries.get?, elsewhere,
        if_neg Bool.false_ne_true]
    · rw [List.filter_cons_of_pos (by simp [left]), Entries.get?, ih, Entries.get?]

/-- Entries whose values are related to those of others, under the same keys in the same order. -/
structure Carried (R : Value → Value → Prop) (es fs : Entries Value) : Prop where
  keys : Entries.keys fs = Entries.keys es
  each : ∀ p ∈ es.zip fs, R p.1.2 p.2.2

namespace Carried

variable {R : Value → Value → Prop} {es fs : Entries Value}

theorem distinct (carried : Carried R es fs) (distinct : Entries.Distinct es) :
    Entries.Distinct fs := by
  have spread (es : Entries Value) : Entries.Distinct es ↔
      (Entries.keys es).Pairwise fun k l => Value.same k l = false := by
    rw [Entries.keys, List.pairwise_map, Entries.Distinct]
  rw [spread, carried.keys, ← spread]
  exact distinct

theorem keyed (carried : Carried R es fs) (keyed : Entries.Keyed es) : Entries.Keyed fs := by
  intro f member
  have among : f.1 ∈ Entries.keys es := carried.keys ▸ List.mem_map_of_mem member
  obtain ⟨e, here, equal⟩ := List.mem_map.mp among
  exact equal ▸ keyed e here

/-- Under the same key stand related values, or none at all. -/
theorem rel_get? (carried : Carried R es fs) (key : Value) :
    Option.Rel R (Entries.get? es key) (Entries.get? fs key) := by
  obtain ⟨keys, each⟩ := carried
  induction es generalizing fs with
  | nil =>
    have none : fs = [] := List.map_eq_nil_iff.mp keys
    subst none
    exact .none
  | cons e rest ih =>
    cases fs with
    | nil => cases keys
    | cons f others =>
      obtain ⟨first, restKeys⟩ := List.cons_eq_cons.mp keys
      rw [List.zip_cons_cons, List.forall_mem_cons] at each
      rw [Entries.get?, Entries.get?, first]
      split
      · exact .some each.1
      · exact ih restKeys each.2

theorem get?_eq_none (carried : Carried R es fs) {key : Value}
    (absent : Entries.get? es key = none) : Entries.get? fs key = none := by
  have related := carried.rel_get? key
  rw [absent] at related
  cases found : Entries.get? fs key with
  | none => rfl
  | some w =>
    rw [found] at related
    cases related

end Carried

theorem exists_mem_zip {α β : Type} {as : List α} {bs : List β} (length : bs.length = as.length)
    {b : β} (member : b ∈ bs) : ∃ a ∈ as, (a, b) ∈ as.zip bs := by
  have whole : (as.zip bs).map Prod.snd = bs := List.map_snd_zip (Nat.le_of_eq length)
  rw [← whole] at member
  obtain ⟨⟨a, b⟩, paired, rfl⟩ := List.mem_map.mp member
  exact ⟨a, (List.of_mem_zip paired).1, paired⟩

theorem Carried.length {R : Value → Value → Prop} {es fs : Entries Value}
    (carried : Carried R es fs) : fs.length = es.length := by
  have lengths := congrArg List.length carried.keys
  rwa [Entries.keys, Entries.keys, List.length_map, List.length_map] at lengths

/-- Inlining what stands under `$ref` makes no reference of it: only a text refers, and a text stays. -/
theorem reference?_eq_none_of_rel {definitions es fs : Entries Value}
    (inlined : Option.Rel (Inlined definitions) (Entries.get? es (.text referenceKey))
      (Entries.get? fs (.text referenceKey))) (free : reference? es = none) :
    reference? fs = none := by
  unfold reference? at free ⊢
  generalize Entries.get? es (.text referenceKey) = stated at inlined free
  generalize Entries.get? fs (.text referenceKey) = left at inlined ⊢
  cases inlined with
  | none => rfl
  | some related =>
    cases related with
    | scalar plain => exact free
    | list _ _ => rfl
    | map _ _ _ => rfl
    | reference _ _ _ _ _ => rfl

/-- What goes over a definition hides nothing of it that matters: it has neither a reference nor
definitions of its own. -/
theorem SelfContained.merge {base siblings : Entries Value} (closed : SelfContained (.map base))
    (distinct : Entries.Distinct siblings) (keyed : Entries.Keyed siblings)
    (noReference : Entries.get? siblings (.text referenceKey) = none)
    (noDefinitions : Entries.get? siblings (.text definitionsKey) = none)
    (each : ∀ e ∈ siblings, SelfContained e.2) :
    SelfContained (.map (Entries.merge base siblings)) := by
  cases closed with
  | scalar plain => cases plain
  | map baseDistinct baseKeyed baseReference baseDefinitions parts =>
    refine .map (Entries.distinct_merge baseDistinct distinct) (Entries.keyed_merge baseKeyed keyed)
      ?_ ?_ ?_
    · unfold reference? at baseReference ⊢
      rwa [Entries.get?_merge baseKeyed keyed rfl, noReference, Option.none_or]
    · rw [Entries.get?_merge baseKeyed keyed rfl, noDefinitions, Option.none_or, baseDefinitions]
    · intro e member
      rcases Entries.value_of_mem_merge member with ⟨b, among, same⟩ | ⟨u, among, same⟩
      · exact same ▸ parts b among
      · exact same ▸ each u among

/-- What a value is inlined to refers to nothing and holds no definitions. -/
theorem Inlined.selfContained {definitions : Entries Value}
    (bodies : ∀ e ∈ definitions, Structured e.2) {v w : Value} (inlined : Inlined definitions v w)
    (structured : Structured v) : SelfContained w := by
  induction inlined with
  | scalar plain => exact .scalar plain
  | list length each ih =>
    rw [structured_list_iff] at structured
    refine .list fun w member => ?_
    obtain ⟨v, among, paired⟩ := exists_mem_zip length member
    exact ih (v, w) paired (structured v among)
  | @map es kept free keys each ih =>
    obtain ⟨distinct, keyed, -, parts⟩ := (structured_map_iff es).mp structured
    have carried : Carried (Inlined definitions) (without definitionsKey es) kept := ⟨keys, each⟩
    have sublist := without_sublist definitionsKey es
    have related := carried.rel_get? (.text referenceKey)
    rw [get?_without_of_ne (show definitionsKey ≠ referenceKey by decide) es] at related
    refine .map (carried.distinct (distinct.sublist sublist)) (carried.keyed (keyed.sublist sublist))
      (reference?_eq_none_of_rel related free)
      (carried.get?_eq_none (get?_without_self definitionsKey es)) ?_
    intro f member
    obtain ⟨e, among, paired⟩ := exists_mem_zip carried.length member
    exact ih (e, f) paired (parts e (sublist.subset among))
  | @reference es base siblings name body refers defined definition keys each whole ih =>
    obtain ⟨distinct, keyed, apart, parts⟩ := (structured_map_iff es).mp structured
    have carried : Carried (Inlined definitions) (without referenceKey es) siblings := ⟨keys, each⟩
    have sublist := without_sublist referenceKey es
    obtain ⟨key, stated, -⟩ := Entries.mem_of_get?_eq_some defined
    have absent : Entries.get? (without referenceKey es) (.text definitionsKey) = none := by
      rw [get?_without_of_ne (show referenceKey ≠ definitionsKey by decide)]
      exact apart (by rw [refers, Option.isSome_some])
    refine (whole (bodies _ stated)).merge (carried.distinct (distinct.sublist sublist))
      (carried.keyed (keyed.sublist sublist))
      (carried.get?_eq_none (get?_without_self referenceKey es)) (carried.get?_eq_none absent) ?_
    intro f member
    obtain ⟨e, among, paired⟩ := exists_mem_zip carried.length member
    exact ih (e, f) paired (parts e (sublist.subset among))

/-! ## Inlining what refers to nothing -/

theorem inlineItems_of_each {resolve : String → Except Misuse Value} {items : List Value}
    (each : ∀ item ∈ items, inlineWith resolve item = .ok item) :
    inlineItems resolve items = .ok items := by
  induction items with
  | nil => rfl
  | cons first rest ih =>
    obtain ⟨here, others⟩ := List.forall_mem_cons.mp each
    rw [inlineItems, here, ih others]
    rfl

theorem inlineEntries_of_each {resolve : String → Except Misuse Value} {left : String}
    {es : Entries Value} (absent : Entries.get? es (.text left) = none)
    (each : ∀ e ∈ es, inlineWith resolve e.2 = .ok e.2) :
    inlineEntries resolve left es = .ok es := by
  induction es with
  | nil => rfl
  | cons first rest ih =>
    obtain ⟨key, v⟩ := first
    obtain ⟨here, others⟩ := List.forall_mem_cons.mp each
    rw [Entries.get?_eq_none_iff, List.forall_mem_cons] at absent
    have kept : Value.same (.text left) key = false := by
      rw [← Value.same_comm key (.text left) rfl]
      exact absent.1
    rw [inlineEntries, kept, if_neg Bool.false_ne_true, here,
      ih ((Entries.get?_eq_none_iff rest _).mpr absent.2) others]
    rfl

/-- Inlining leaves what refers to nothing as it is, whatever the references would mean. -/
theorem SelfContained.inlineWith_eq {v : Value} (closed : SelfContained v)
    (resolve : String → Except Misuse Value) : inlineWith resolve v = .ok v := by
  induction closed with
  | @scalar v plain =>
    cases v with
    | list items => cases plain
    | tuple items => cases plain
    | map es => cases plain
    | _ => rfl
  | list each ih =>
    rw [inlineWith, inlineItems_of_each ih]
    rfl
  | map distinct keyed noReference noDefinitions each ih =>
    rw [inlineWith, noReference]
    simp only [inlineEntries_of_each noDefinitions ih]
    rfl

end Schema

end AccessGroups
