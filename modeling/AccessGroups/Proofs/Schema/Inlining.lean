import AccessGroups.Proofs.Schema.SelfContained
import AccessGroups.Schema.Document
import Mathlib.Data.List.Perm.Subperm
import Mathlib.Logic.Relation

/-!
Inlining ends. The definitions that are open inside each other all lead to the name that is asked for, so
without a cycle they are distinct, and there are no more of them than there are definitions: the bound on
how deep they may lie is never what stops the recursion.
-/

set_option autoImplicit false

namespace AccessGroups.Schema

mutual

/-- The names that a value refers to, at any depth. -/
def references : Value → List String
  | .list items => referencesOfItems items
  | .map es => (reference? es).toList ++ referencesOfEntries es
  | _ => []

def referencesOfItems : List Value → List String
  | [] => []
  | v :: vs => references v ++ referencesOfItems vs

def referencesOfEntries : List (Value × Value) → List String
  | [] => []
  | (_, v) :: es => references v ++ referencesOfEntries es

end

theorem references_subset_of_item {items : List Value} {item : Value} (member : item ∈ items) :
    references item ⊆ references (.list items) := by
  rw [references]
  induction items with
  | nil => cases member
  | cons first rest ih =>
    rw [referencesOfItems]
    rcases List.mem_cons.mp member with rfl | later
    · exact List.subset_append_left _ _
    · exact List.Subset.trans (ih later) (List.subset_append_right _ _)

theorem references_subset_of_entry {es : Entries Value} {e : Value × Value} (member : e ∈ es) :
    references e.2 ⊆ references (.map es) := by
  rw [references]
  refine List.Subset.trans ?_ (List.subset_append_right _ _)
  induction es with
  | nil => cases member
  | cons first rest ih =>
    rw [referencesOfEntries]
    rcases List.mem_cons.mp member with rfl | later
    · exact List.subset_append_left _ _
    · exact List.Subset.trans (ih later) (List.subset_append_right _ _)

theorem mem_references_of_reference? {es : Entries Value} {name : String}
    (refers : reference? es = some name) : name ∈ references (.map es) := by
  rw [references, refers]
  exact List.mem_append_left _ (List.mem_singleton_self name)

/-! ## One definition -/

theorem exists_inlineItems {resolve : String → Except Misuse Value} {R : Value → Value → Prop}
    {items : List Value} (each : ∀ item ∈ items, ∃ w, inlineWith resolve item = .ok w ∧ R item w) :
    ∃ inlined, inlineItems resolve items = .ok inlined ∧ inlined.length = items.length ∧
      ∀ p ∈ items.zip inlined, R p.1 p.2 := by
  induction items with
  | nil => exact ⟨[], rfl, rfl, nofun⟩
  | cons first rest ih =>
    obtain ⟨⟨w, made, related⟩, others⟩ := List.forall_mem_cons.mp each
    obtain ⟨inlined, all, length, pairs⟩ := ih others
    refine ⟨w :: inlined, ?_, congrArg (· + 1) length, ?_⟩
    · rw [inlineItems, made, all]
      rfl
    · rw [List.zip_cons_cons, List.forall_mem_cons]
      exact ⟨related, pairs⟩

theorem exists_inlineEntries {resolve : String → Except Misuse Value} {R : Value → Value → Prop}
    (left : String) {es : Entries Value}
    (each : ∀ e ∈ es, ∃ w, inlineWith resolve e.2 = .ok w ∧ R e.2 w) :
    ∃ inlined, inlineEntries resolve left es = .ok inlined ∧
      Carried R (without left es) inlined := by
  induction es with
  | nil => exact ⟨[], rfl, ⟨rfl, nofun⟩⟩
  | cons first rest ih =>
    obtain ⟨key, v⟩ := first
    obtain ⟨⟨w, made, related⟩, others⟩ := List.forall_mem_cons.mp each
    obtain ⟨inlined, all, carried⟩ := ih others
    rw [without] at carried ⊢
    by_cases dropped : Value.same (.text left) key = true
    · refine ⟨inlined, ?_, ?_⟩
      · rw [inlineEntries, if_pos dropped, all]
      · rw [List.filter_cons_of_neg (by simp [dropped])]
        exact carried
    · refine ⟨(key, w) :: inlined, ?_, ?_⟩
      · rw [inlineEntries, if_neg dropped, made, all]
        rfl
      · rw [List.filter_cons_of_pos (by simp [dropped])]
        refine ⟨congrArg (key :: ·) carried.keys, ?_⟩
        rw [List.zip_cons_cons, List.forall_mem_cons]
        exact ⟨related, carried.each⟩

section

variable {definitions : Entries Value}

/-- A name that has a meaning: its definition, a mapping, is inlined to what the name is resolved to. -/
def Resolved (definitions : Entries Value) (resolve : String → Except Misuse Value) (name : String) :
    Prop :=
  ∃ body base, Entries.get? definitions (.text name) = some body ∧ resolve name = .ok (.map base) ∧
    Inlined definitions body (.map base)

theorem exists_inlineWith (bodies : ∀ e ∈ definitions, Structured e.2)
    {resolve : String → Except Misuse Value} {v : Value} (structured : Structured v)
    (resolved : ∀ name ∈ references v, Resolved definitions resolve name) :
    ∃ w, inlineWith resolve v = .ok w ∧ Inlined definitions v w := by
  induction structured with
  | @scalar v plain =>
    refine ⟨v, ?_, .scalar plain⟩
    exact (SelfContained.scalar plain).inlineWith_eq resolve
  | @list items each ih =>
    have parts : ∀ item ∈ items, ∃ w, inlineWith resolve item = .ok w ∧ Inlined definitions item w :=
      fun item member => ih item member fun name among =>
        resolved name (references_subset_of_item member among)
    obtain ⟨inlined, all, length, pairs⟩ := exists_inlineItems parts
    refine ⟨.list inlined, ?_, .list length pairs⟩
    rw [inlineWith, all]
    rfl
  | @map es distinct keyed apart each ih =>
    have parts : ∀ e ∈ es, ∃ w, inlineWith resolve e.2 = .ok w ∧ Inlined definitions e.2 w :=
      fun e member => ih e member fun name among =>
        resolved name (references_subset_of_entry member among)
    cases refers : reference? es with
    | none =>
      obtain ⟨inlined, all, carried⟩ := exists_inlineEntries definitionsKey parts
      refine ⟨.map inlined, ?_, .map refers carried.keys carried.each⟩
      rw [inlineWith, refers]
      simp only [all]
      rfl
    | some name =>
      obtain ⟨siblings, all, carried⟩ := exists_inlineEntries referenceKey parts
      obtain ⟨body, base, defined, made, meaning⟩ :=
        resolved name (mem_references_of_reference? refers)
      refine ⟨.map (Entries.merge base siblings), ?_,
        .reference refers defined meaning carried.keys carried.each⟩
      -- What is put over the definition one entry after another is merged over it.
      obtain ⟨key, stated, -⟩ := Entries.mem_of_get?_eq_some defined
      have sublist := without_sublist referenceKey es
      cases meaning.selfContained bodies (bodies _ stated) with
      | scalar plain => cases plain
      | map baseDistinct baseKeyed _ _ _ =>
        have merged := Entries.foldl_put_eq_merge baseDistinct baseKeyed
          (carried.distinct (distinct.sublist sublist)) (carried.keyed (keyed.sublist sublist))
        rw [inlineWith, refers]
        simp only [made, all, overlay, merged, bind, Except.bind]

/-! ## Definitions open inside each other -/

def Refers (definitions : Entries Value) (name next : String) : Prop :=
  ∃ body, Entries.get? definitions (.text name) = some body ∧ next ∈ references body

def Defines (definitions : Entries Value) (name : String) : Prop :=
  ∃ es, Entries.get? definitions (.text name) = some (.map es)

/-- Definitions that refer to definitions only, and not back to themselves. -/
structure Grounded (definitions : Entries Value) : Prop where
  structured : ∀ e ∈ definitions, Structured e.2
  defined : ∀ e ∈ definitions, ∀ name ∈ references e.2, Defines definitions name
  acyclic : ∀ name, ¬ Relation.TransGen (Refers definitions) name name

/-- The names of definitions that are open while another name is asked for. -/
structure Opened (definitions : Entries Value) (opened : List String) (name : String) : Prop where
  distinct : opened.Nodup
  defined : opened ⊆ Entries.names definitions
  leading : ∀ other ∈ opened, Relation.TransGen (Refers definitions) other name

theorem Opened.length_le {opened : List String} {name : String}
    (nested : Opened definitions opened name) : opened.length ≤ definitions.length := by
  have names : opened.length ≤ (Entries.names definitions).length :=
    (nested.distinct.subperm nested.defined).length_le
  exact Nat.le_trans names (List.length_filterMap_le _ _)

/-- A definition is opened inside the ones that are open. -/
theorem Opened.enter (grounded : Grounded definitions) {opened : List String} {name next : String}
    (nested : Opened definitions opened name) (refers : Refers definitions name next) :
    Opened definitions (name :: opened) next := by
  have ⟨body, found, _⟩ := refers
  have absent : name ∉ opened := fun inside => grounded.acyclic name (nested.leading name inside)
  have present : name ∈ Entries.names definitions := by
    rw [← Entries.has_text_iff, Entries.has, found, Option.isSome_some]
  refine ⟨List.nodup_cons.mpr ⟨absent, nested.distinct⟩,
    List.cons_subset.mpr ⟨present, nested.defined⟩, ?_⟩
  intro other among
  rcases List.mem_cons.mp among with rfl | earlier
  · exact .single refers
  · exact (nested.leading other earlier).tail refers

/-- A defined name has a meaning at every depth that leaves room for the definitions that are not open. -/
theorem resolved_of_opened (grounded : Grounded definitions) (depth : Nat) {opened : List String}
    {name : String} (nested : Opened definitions opened name) (defined : Defines definitions name)
    (room : definitions.length < depth + opened.length) :
    Resolved definitions (resolveWithin definitions depth) name := by
  -- One level deeper there is one definition more that is open, so the room stays as it is.
  induction depth generalizing opened name with
  | zero =>
    have few : opened.length ≤ definitions.length := nested.length_le
    omega
  | succ depth ih =>
    obtain ⟨es, found⟩ := defined
    obtain ⟨key, stated, -⟩ := Entries.mem_of_get?_eq_some found
    have inner : ∀ next ∈ references (.map es),
        Resolved definitions (resolveWithin definitions depth) next := by
      intro next member
      have refers : Refers definitions name next := ⟨_, found, member⟩
      have entered : Opened definitions (name :: opened) next := nested.enter grounded refers
      refine ih entered (grounded.defined _ stated next member) ?_
      rw [List.length_cons]
      omega
    obtain ⟨w, made, inlined⟩ :=
      exists_inlineWith grounded.structured (grounded.structured _ stated) inner
    obtain ⟨base, rfl⟩ := inlined.exists_map
    refine ⟨.map es, base, found, ?_, inlined⟩
    rw [resolveWithin, found]
    exact made

/-- Every reference leads to a definition of a lower rank: then there is no cycle. -/
theorem not_transGen_of_rank (rank : Value → Nat)
    (lower : ∀ e ∈ definitions, ∀ next ∈ references e.2, rank (.text next) < rank e.1)
    (name : String) : ¬ Relation.TransGen (Refers definitions) name name := by
  have step {name next : String} (refers : Refers definitions name next) :
      rank (.text next) < rank (.text name) := by
    obtain ⟨body, found, member⟩ := refers
    obtain ⟨key, stated, same⟩ := Entries.mem_of_get?_eq_some found
    rw [Value.same_text_iff] at same
    exact same ▸ lower _ stated next member
  have descending {last : String} (path : Relation.TransGen (Refers definitions) name last) :
      rank (.text last) < rank (.text name) := by
    induction path with
    | single refers => exact step refers
    | tail _ refers ih => exact Nat.lt_trans (step refers) ih
  intro cycle
  exact Nat.lt_irrefl _ (descending cycle)

theorem exists_inline (grounded : Grounded definitions) {node : Value} (structured : Structured node)
    (defined : ∀ name ∈ references node, Defines definitions name) :
    ∃ result, inline definitions node = .ok result ∧ Inlined definitions node result := by
  refine exists_inlineWith grounded.structured structured fun name member => ?_
  have outermost : Opened definitions [] name := ⟨List.nodup_nil, List.nil_subset _, nofun⟩
  exact resolved_of_opened grounded _ outermost (defined name member) (Nat.lt_succ_self _)

/-- A document whose references lead to definitions, which refer to each other without a cycle, is
inlined. In the result nothing is a reference or holds definitions, and inlining it again, with whatever
definitions, leaves it as it is. -/
theorem inline_selfContained (grounded : Grounded definitions) {node : Value}
    (structured : Structured node) (defined : ∀ name ∈ references node, Defines definitions name) :
    ∃ result, inline definitions node = .ok result ∧ Inlined definitions node result ∧
      SelfContained result ∧ ∀ others, inline others result = .ok result := by
  obtain ⟨result, made, inlined⟩ := exists_inline grounded structured defined
  have closed : SelfContained result := inlined.selfContained grounded.structured structured
  exact ⟨result, made, inlined, closed, fun others => closed.inlineWith_eq _⟩

end

/-- A definition that stands for another one under a title of its own, and that one with definitions
inside it and a property that refers further. -/
def chained : Entries Value :=
  [(.text "A", .object [("$ref", .text "#/$defs/B"), ("title", .text "A")]),
    (.text "B", .object
      [("properties", .object [("c", referenceTo "C")]), ("title", .text "B"),
        ("$defs", .object [("D", referenceTo "C")])]),
    (.text "C", .object [("type", .text "string")])]

theorem chained_grounded : Grounded chained where
  structured := by
    simp [chained, Value.object, Entries.Distinct, Entries.Keyed, Value.hashable, referenceTo,
      reference?, Entries.get?, referenceKey, definitionsKey]
  defined := by
    have names : ∀ e ∈ chained, ∀ name ∈ references e.2, name = "B" ∨ name = "C" := by decide
    intro e member name among
    rcases names e member name among with rfl | rfl
    · exact ⟨_, rfl⟩
    · exact ⟨_, rfl⟩
  acyclic := not_transGen_of_rank
    (fun key => if Value.same (.text "A") key then 2 else if Value.same (.text "B") key then 1 else 0)
    (by decide)

/-- A document with a reference that has a sibling, beside its definitions. -/
def chainedNode : Value :=
  .object
    [("anyOf", .list [.object [("$ref", .text "#/$defs/A"), ("items", referenceTo "C")], .null]),
      ("$defs", .map chained)]

theorem chainedNode_structured : Structured chainedNode := by
  simp [chainedNode, chained, Value.object, Entries.Distinct, Entries.Keyed, Value.hashable,
    referenceTo, reference?, Entries.get?, referenceKey, definitionsKey]

theorem inline_selfContained_chained :
    ∃ result, inline chained chainedNode = .ok result ∧ SelfContained result ∧
      inline [] result = .ok result ∧
      result = .object [("anyOf", .list [.object
        [("properties", .object [("c", .object [("type", .text "string")])]), ("title", .text "A"),
          ("items", .object [("type", .text "string")])], .null])] := by
  have names : ∀ name ∈ references chainedNode, name = "A" ∨ name = "B" ∨ name = "C" := by decide
  have defined : ∀ name ∈ references chainedNode, Defines chained name := by
    intro name among
    rcases names name among with rfl | rfl | rfl <;> exact ⟨_, rfl⟩
  obtain ⟨result, made, -, closed, again⟩ :=
    inline_selfContained chained_grounded chainedNode_structured defined
  refine ⟨result, made, closed, again [], ?_⟩
  have computed : inline chained chainedNode = .ok (.object [("anyOf", .list [.object
      [("properties", .object [("c", .object [("type", .text "string")])]), ("title", .text "A"),
        ("items", .object [("type", .text "string")])], .null])]) := rfl
  exact Except.ok.inj (made.symm.trans computed)

/-! ## The library's own documents -/

theorem principals_structured : Structured Document.principals := by
  simp [Document.principals, Document.principalForms, Document.titled, Document.anyOf,
    Document.listOf, Document.ofType, Document.anyMapping, Value.object, Entries.Distinct,
    Entries.Keyed, Value.hashable, reference?, Entries.get?, referenceKey]

theorem document_structured (model : Model) : Structured model.document := by
  have principals := principals_structured
  cases model <;>
    simp [Model.document, Document.access, Document.functionAccess, Document.allowAccess,
      Document.group, Document.policy, Document.role, Document.record, Document.requiring,
      Document.closed, Document.titled, Document.anyOf, Document.listOf, Document.ofType,
      Value.texts, Value.object, Entries.Distinct, Entries.Keyed, Value.hashable, referenceTo,
      reference?, Entries.get?, referenceKey, definitionsKey, Role.nameField, Role.principalsField,
      Role.tagSessionField, Role.durationField, Policy.principalsField, Group.policyField,
      Group.roleField, Access.groupsField, FunctionAccess.allowAccessField, FieldName.single,
      principals]

theorem definitions_grounded : Grounded Document.definitions where
  structured := by
    intro e member
    have body : e.2 ∈ [Model.group.document, Model.policy.document, Model.role.document] :=
      List.mem_map_of_mem (f := Prod.snd) member
    simp only [List.mem_cons, List.not_mem_nil, or_false] at body
    rcases body with same | same | same <;> exact same ▸ document_structured _
  defined := by
    have names : ∀ e ∈ Document.definitions, ∀ name ∈ references e.2,
        name = Policy.title ∨ name = Role.title := by decide
    intro e member name among
    rcases names e member name among with rfl | rfl <;> exact ⟨_, rfl⟩
  acyclic := not_transGen_of_rank
    (fun key => if Value.same (.text Group.title) key then 1 else 0) (by decide)

/-- Every document of the library can be placed inside another one: inlined, it refers to nothing. -/
theorem Model.inlined_selfContained (model : Model) :
    ∃ document, model.inlined = .ok document ∧ SelfContained document := by
  have names : ∀ name ∈ references model.document,
      name = Group.title ∨ name = Policy.title ∨ name = Role.title := by
    cases model <;> decide
  have defined : ∀ name ∈ references model.document, Defines Document.definitions name := by
    intro name among
    rcases names name among with rfl | rfl | rfl <;> exact ⟨_, rfl⟩
  obtain ⟨document, made, inlined⟩ :=
    exists_inline definitions_grounded (document_structured model) defined
  exact ⟨document, made, inlined.selfContained definitions_grounded.structured
    (document_structured model)⟩

end AccessGroups.Schema
