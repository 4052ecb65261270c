import AccessGroups.Proofs.Value.Keys

/-!
Look-up and replacement in mappings. What is put under a text key is found there and nowhere else, and
in a mapping whose keys are distinct, putting under a key that is present changes that one entry.
-/

set_option autoImplicit false

namespace AccessGroups

namespace Entries

variable {β : Type}

/-- No two keys of the mapping are the same. -/
def Distinct (es : Entries β) : Prop := es.Pairwise fun e f => Value.same e.1 f.1 = false

def names (es : Entries β) : List String :=
  es.filterMap fun
    | (.text name, _) => some name
    | _ => none

@[simp] theorem names_nil : names ([] : Entries β) = [] := rfl

@[simp] theorem names_cons_text (name : String) (v : β) (rest : Entries β) :
    names ((.text name, v) :: rest) = name :: names rest := rfl

@[simp] theorem names_append (es fs : Entries β) : names (es ++ fs) = names es ++ names fs :=
  List.filterMap_append

theorem mem_names_iff (es : Entries β) (name : String) :
    name ∈ names es ↔ ∃ v, (.text name, v) ∈ es := by
  unfold names
  rw [List.mem_filterMap]
  constructor
  · rintro ⟨⟨k, v⟩, member, found⟩
    cases k with
    | text s =>
      cases found
      exact ⟨v, member⟩
    | _ => cases found
  · rintro ⟨v, member⟩
    exact ⟨(.text name, v), member, rfl⟩

theorem get?_eq_none_iff (es : Entries β) (key : Value) :
    get? es key = none ↔ ∀ e ∈ es, Value.same e.1 key = false := by
  induction es with
  | nil => simp
  | cons e rest ih =>
    obtain ⟨k, v⟩ := e
    by_cases same : Value.same k key = true
    · simp [get?, same]
    · simp only [Bool.not_eq_true] at same
      simp [get?, same, ih]

theorem mem_of_get?_eq_some {es : Entries β} {key : Value} {v : β} (found : get? es key = some v) :
    ∃ k, (k, v) ∈ es ∧ Value.same k key = true := by
  induction es with
  | nil => cases found
  | cons e rest ih =>
    obtain ⟨k, w⟩ := e
    simp only [get?] at found
    split at found
    · rename_i same
      cases found
      exact ⟨k, List.mem_cons_self, same⟩
    · obtain ⟨other, member, same⟩ := ih found
      exact ⟨other, List.mem_cons_of_mem _ member, same⟩

theorem get?_isSome_iff (es : Entries β) (key : Value) :
    (get? es key).isSome = true ↔ ∃ e ∈ es, Value.same e.1 key = true := by
  rw [← Bool.not_eq_false, Option.isSome_eq_false_iff, Option.isNone_iff_eq_none, get?_eq_none_iff]
  simp

theorem has_text_iff (es : Entries β) (name : String) :
    has es (.text name) = true ↔ name ∈ names es := by
  unfold has
  rw [get?_isSome_iff, mem_names_iff]
  constructor
  · rintro ⟨⟨k, v⟩, member, same⟩
    rw [Value.same_text_iff] at same
    exact ⟨v, same ▸ member⟩
  · rintro ⟨v, member⟩
    exact ⟨(.text name, v), member, (Value.same_text_iff _ _).mpr rfl⟩

theorem put_of_not_mem_names (es : Entries β) (name : String) (v : β) (absent : name ∉ names es) :
    put es (.text name) v = es ++ [(.text name, v)] := by
  apply put_of_get?_eq_none
  rw [← has_text_iff, Bool.not_eq_true] at absent
  exact Option.isNone_iff_eq_none.mp (Option.isSome_eq_false_iff.mp absent)

theorem get?_put_text (es : Entries β) (name other : String) (v : β) :
    get? (put es (.text name) v) (.text other) =
      if name = other then some v else get? es (.text other) := by
  induction es with
  | nil =>
    by_cases same : name = other <;> simp [get?, same]
  | cons e rest ih =>
    obtain ⟨k, w⟩ := e
    by_cases here : k = .text name
    · subst here
      by_cases same : name = other <;> simp [put, get?, same]
    · have different := Value.same_text_false k name here
      simp only [put, different, Bool.false_eq_true, ↓reduceIte, get?]
      rw [ih]
      by_cases there : k = .text other
      · subst there
        have apart : name ≠ other := fun same => here (by rw [same])
        simp [apart]
      · have elsewhere := Value.same_text_false k other there
        simp [elsewhere]

/-- Distinct keys: replacing what is under a key changes the one entry under it. -/
theorem put_eq_map {es : Entries β} (distinct : Distinct es) {key : Value} {v : β} (f : β → β)
    (hashable : key.hashable = true) (found : get? es key = some v) :
    put es key (f v) = es.map fun e => if Value.same e.1 key then (e.1, f e.2) else e := by
  induction es with
  | nil => cases found
  | cons e rest ih =>
    obtain ⟨k, w⟩ := e
    have apart := List.pairwise_cons.mp distinct
    by_cases same : Value.same k key = true
    · simp only [get?, same, ↓reduceIte, Option.some.injEq] at found
      subst found
      have others : (rest.map fun e => if Value.same e.1 key then (e.1, f e.2) else e) = rest := by
        conv => rhs; rw [← List.map_id rest]
        apply List.map_congr_left
        intro e member
        have other : Value.same e.1 key = false := by
          rw [Bool.eq_false_iff]
          intro both
          have impossible := Value.same_of_common key hashable same both
          rw [apart.1 e member] at impossible
          cases impossible
        simp only [other, Bool.false_eq_true, ↓reduceIte, id]
      simp only [put, same, ↓reduceIte, List.map_cons, others]
    · simp only [get?, same, Bool.false_eq_true, ↓reduceIte] at found
      simp only [put, same, Bool.false_eq_true, ↓reduceIte, List.map_cons]
      rw [ih apart.2 found]

theorem mem_of_mem_put {es : Entries β} {key : Value} {v : β} {e : Value × β}
    (member : e ∈ put es key v) : e ∈ es ∨ e.2 = v := by
  induction es with
  | nil => exact Or.inr (by rw [List.mem_singleton.mp member])
  | cons first rest ih =>
    obtain ⟨k, w⟩ := first
    simp only [put] at member
    split at member
    · rcases List.mem_cons.mp member with rfl | member
      · exact Or.inr rfl
      · exact Or.inl (List.mem_cons_of_mem _ member)
    · rcases List.mem_cons.mp member with rfl | member
      · exact Or.inl List.mem_cons_self
      · exact (ih member).imp_left (List.mem_cons_of_mem _)

/-- What putting a value under a key makes of a mapping. An absent key counts as one with `null` and goes
to the end; a key that is present keeps its place and its spelling. No other entry changes. -/
inductive Revised (key old new : Value) : Entries Value → Entries Value → Prop
  | added (es : Entries Value) (absent : get? es key = none) (nothing : old = .null) :
      Revised key old new es (es ++ [(key, new)])
  | replaced (front back : Entries Value) {k : Value} (same : Value.same k key = true)
      (first : get? front key = none) :
      Revised key old new (front ++ (k, old) :: back) (front ++ (k, new) :: back)

theorem Revised.cons {key old new : Value} {es fs : Entries Value} {e : Value × Value}
    (other : Value.same e.1 key = false) (revised : Revised key old new es fs) :
    Revised key old new (e :: es) (e :: fs) := by
  obtain ⟨k, v⟩ := e
  cases revised with
  | added _ absent nothing => exact .added _ (by simp [get?, other, absent]) nothing
  | replaced front back same first =>
    exact .replaced ((k, v) :: front) back same (by simp [get?, other, first])

theorem revised_put (es : Entries Value) (key new : Value) :
    Revised key ((get? es key).getD .null) new es (put es key new) := by
  induction es with
  | nil => exact .added [] rfl rfl
  | cons e rest ih =>
    obtain ⟨k, v⟩ := e
    by_cases same : Value.same k key = true
    · simp only [get?, put, same, ↓reduceIte, Option.getD_some]
      exact .replaced [] rest same rfl
    · simp only [Bool.not_eq_true] at same
      simp only [get?, put, same, Bool.false_eq_true, ↓reduceIte]
      exact ih.cons same

theorem Distinct.map {γ : Type} {es : Entries β} (distinct : Distinct es) (f : Value × β → γ) :
    Distinct (es.map fun e => (e.1, f e)) := by
  unfold Distinct
  rw [List.pairwise_map]
  exact distinct

theorem Distinct.replace {front back : Entries β} {key : Value} {v : β}
    (distinct : Distinct (front ++ (key, v) :: back)) (w : β) :
    Distinct (front ++ (key, w) :: back) := by
  simpa [Distinct, List.pairwise_append] using distinct

theorem Distinct.without {front back : Entries β} {e : Value × β}
    (distinct : Distinct (front ++ e :: back)) : Distinct (front ++ back) :=
  distinct.sublist (List.Sublist.append_left (List.sublist_cons_self _ _) _)

end Entries

/-- Named values as the entries of a mapping. -/
def Entries.ofNamed (added : List (String × Value)) : Entries Value :=
  added.map fun (name, resource) => (.text name, resource)

@[simp] theorem Entries.ofNamed_nil : Entries.ofNamed [] = [] := rfl

@[simp] theorem Entries.ofNamed_cons (name : String) (resource : Value)
    (rest : List (String × Value)) :
    Entries.ofNamed ((name, resource) :: rest) = (.text name, resource) :: Entries.ofNamed rest :=
  rfl

@[simp] theorem Entries.ofNamed_append (before after : List (String × Value)) :
    Entries.ofNamed (before ++ after) = Entries.ofNamed before ++ Entries.ofNamed after :=
  List.map_append

@[simp] theorem Entries.names_ofNamed (added : List (String × Value)) :
    (Entries.ofNamed added).names = added.map Prod.fst := by
  induction added with
  | nil => rfl
  | cons e rest ih => rw [ofNamed_cons, names_cons_text, ih, List.map_cons]

end AccessGroups
