import AccessGroups.Proofs.Value.Mapping

/-!
Mappings merged into one. The entries of the first keep their places and spellings and take the values
that the second has under the same keys; the entries of the second whose keys are new follow in order.
Putting the entries of the second into the first one after another comes to this.
-/

set_option autoImplicit false

namespace AccessGroups.Entries

variable {β γ : Type}

/-- A mapping with another one over it. -/
def merge (base upper : Entries β) : Entries β :=
  base.map (fun e => (e.1, (get? upper e.1).getD e.2)) ++ upper.filter fun e => !has base e.1

/-- Every key of the mapping is of a kind that serves as a key. -/
def Keyed (es : Entries β) : Prop := ∀ e ∈ es, Value.hashable e.1 = true

theorem Keyed.cons_iff {e : Value × β} {es : Entries β} :
    Keyed (e :: es) ↔ Value.hashable e.1 = true ∧ Keyed es :=
  List.forall_mem_cons

theorem Keyed.sublist {es fs : Entries β} (keyed : Keyed fs) (sublist : es.Sublist fs) : Keyed es :=
  fun e member => keyed e (sublist.subset member)

theorem has_eq_false_iff (es : Entries β) (key : Value) :
    has es key = false ↔ ∀ e ∈ es, Value.same e.1 key = false := by
  rw [has, Option.isSome_eq_false_iff, Option.isNone_iff_eq_none, get?_eq_none_iff]

theorem get?_append (es fs : Entries β) (key : Value) :
    get? (es ++ fs) key = (get? es key).or (get? fs key) := by
  induction es with
  | nil => rfl
  | cons e rest ih =>
    rw [List.cons_append, get?, get?, ih]
    split <;> rfl

theorem has_append (es fs : Entries β) (key : Value) :
    has (es ++ fs) key = (has es key || has fs key) := by
  rw [has, get?_append, Option.isSome_or]
  rfl

/-- Which keys a mapping has does not depend on what stands under them. -/
theorem has_map_value (f : Value × β → γ) (es : Entries β) (key : Value) :
    has (es.map fun e => (e.1, f e)) key = has es key := by
  induction es with
  | nil => rfl
  | cons e rest ih =>
    rw [has, has] at ih ⊢
    rw [List.map_cons, get?, get?]
    by_cases same : Value.same e.1 key = true
    · rw [if_pos same, if_pos same, Option.isSome_some, Option.isSome_some]
    · rw [if_neg same, if_neg same, ih]

/-- What is under a key depends on the key only up to sameness. -/
theorem get?_congr {r s : Value} (first : r.hashable = true) (second : s.hashable = true)
    (equal : Value.same r s = true) (es : Entries β) : get? es r = get? es s := by
  induction es with
  | nil => rfl
  | cons e rest ih => rw [get?, get?, ih, Value.same_congr first second equal]

/-- A key that differs from all the others is not among them, whichever way they are compared. -/
theorem get?_eq_none_of_apart {key : Value} (hashable : key.hashable = true) {es : Entries β}
    (apart : ∀ e ∈ es, Value.same key e.1 = false) : get? es key = none := by
  rw [get?_eq_none_iff]
  intro e member
  rw [Value.same_comm e.1 key hashable]
  exact apart e member

/-! ## Putting entries one after another -/

/-- Putting a value under a key that is present leaves the keys as they are. -/
theorem put_eq_map_value {es : Entries β} (distinct : Distinct es) {key : Value}
    (hashable : key.hashable = true) {old : β} (found : get? es key = some old) (v : β) :
    put es key v = es.map fun e => (e.1, if Value.same e.1 key then v else e.2) := by
  rw [put_eq_map distinct (fun _ => v) hashable found]
  refine List.map_congr_left fun e _ => ?_
  split <;> rfl

theorem distinct_put {es : Entries β} (distinct : Distinct es) {key : Value}
    (hashable : key.hashable = true) (v : β) : Distinct (put es key v) := by
  cases found : get? es key with
  | none =>
    rw [put_of_get?_eq_none es key v found, Distinct, List.pairwise_append]
    refine ⟨distinct, List.pairwise_singleton _ _, fun e member f last => ?_⟩
    rw [List.mem_singleton.mp last]
    exact (get?_eq_none_iff es key).mp found e member
  | some w =>
    rw [put_eq_map_value distinct hashable found]
    exact distinct.map _

theorem keyed_put {es : Entries β} (keyed : Keyed es) {key : Value} (hashable : key.hashable = true)
    (v : β) : Keyed (put es key v) := by
  induction es with
  | nil =>
    intro e member
    rwa [List.mem_singleton.mp member]
  | cons e rest ih =>
    obtain ⟨k, w⟩ := e
    obtain ⟨first, others⟩ := Keyed.cons_iff.mp keyed
    rw [put]
    split
    · exact Keyed.cons_iff.mpr ⟨first, others⟩
    · exact Keyed.cons_iff.mpr ⟨first, ih others⟩

section

variable {base rest : Entries β} {key : Value} {v : β}

/-- A new key goes to the end: it changes no value of the first mapping and hides no later key. -/
theorem merge_cons_of_absent (hashable : key.hashable = true) (absent : get? base key = none)
    (apart : ∀ e ∈ rest, Value.same key e.1 = false) :
    merge base ((key, v) :: rest) = merge (base ++ [(key, v)]) rest := by
  have free : has base key = false := by rw [has, absent, Option.isSome_none]
  have single : get? rest key = none := get?_eq_none_of_apart hashable apart
  have values : base.map (fun b => (b.1, (get? ((key, v) :: rest) b.1).getD b.2)) =
      base.map fun b => (b.1, (get? rest b.1).getD b.2) := by
    refine List.map_congr_left fun b member => ?_
    have other : Value.same key b.1 = false := by
      rw [← Value.same_comm b.1 key hashable]
      exact (get?_eq_none_iff base key).mp absent b member
    rw [get?, other, if_neg Bool.false_ne_true]
  have news : rest.filter (fun f => !has (base ++ [(key, v)]) f.1) =
      rest.filter fun f => !has base f.1 := by
    refine List.filter_congr fun f member => ?_
    have last : has [(key, v)] f.1 = false := by
      rw [has_eq_false_iff]
      intro g among
      rw [List.mem_singleton.mp among]
      exact apart f member
    rw [has_append, last, Bool.or_false]
  rw [merge, merge, values, news, List.map_append, List.filter_cons_of_pos (by simp [free]),
    List.append_assoc, List.map_singleton, single]
  rfl

/-- A key that is present changes the value under it, which no later entry does. -/
theorem merge_cons_of_present (distinct : Distinct base) (keyed : Keyed base)
    (hashable : key.hashable = true) {old : β} (found : get? base key = some old)
    (apart : ∀ e ∈ rest, Value.same key e.1 = false) :
    merge base ((key, v) :: rest) = merge (put base key v) rest := by
  have present : has base key = true := by rw [has, found, Option.isSome_some]
  have single : get? rest key = none := get?_eq_none_of_apart hashable apart
  have spelled := put_eq_map_value distinct hashable found v
  have values : base.map (fun b => (b.1, (get? ((key, v) :: rest) b.1).getD b.2)) =
      (put base key v).map fun b => (b.1, (get? rest b.1).getD b.2) := by
    rw [spelled, List.map_map]
    refine List.map_congr_left fun b member => ?_
    rw [get?, ← Value.same_comm b.1 key hashable]
    by_cases same : Value.same b.1 key = true
    · have under : get? rest b.1 = none := by
        rw [get?_congr (keyed b member) hashable same, single]
      simp [same, under]
    · simp [same]
  have news : rest.filter (fun f => !has (put base key v) f.1) =
      rest.filter fun f => !has base f.1 := by
    refine List.filter_congr fun f _ => ?_
    rw [spelled, has_map_value fun b => if Value.same b.1 key then v else b.2]
  rw [merge, merge, values, news, List.filter_cons_of_neg (by simp [present])]

end

theorem merge_cons {base rest : Entries β} {e : Value × β} (distinct : Distinct base)
    (keyed : Keyed base) (others : Distinct (e :: rest)) (hashable : e.1.hashable = true) :
    merge base (e :: rest) = merge (put base e.1 e.2) rest := by
  obtain ⟨apart, -⟩ := List.pairwise_cons.mp others
  cases found : get? base e.1 with
  | none =>
    rw [put_of_get?_eq_none base e.1 e.2 found]
    exact merge_cons_of_absent hashable found apart
  | some old => exact merge_cons_of_present distinct keyed hashable found apart

/-- Putting the entries of a mapping into another one after another merges the two. -/
theorem foldl_put_eq_merge {base upper : Entries β} (distinct : Distinct base) (keyed : Keyed base)
    (others : Distinct upper) (otherKeys : Keyed upper) :
    upper.foldl (fun done e => put done e.1 e.2) base = merge base upper := by
  induction upper generalizing base with
  | nil => simp [merge]
  | cons e rest ih =>
    obtain ⟨hashable, restKeys⟩ := Keyed.cons_iff.mp otherKeys
    rw [List.foldl_cons, ih (distinct_put distinct hashable e.2) (keyed_put keyed hashable e.2)
      (List.pairwise_cons.mp others).2 restKeys, ← merge_cons distinct keyed others hashable]

/-! ## The merged mapping -/

/-- A value in the merged mapping comes from one of the two. -/
theorem value_of_mem_merge {base upper : Entries β} {e : Value × β} (member : e ∈ merge base upper) :
    (∃ b ∈ base, b.2 = e.2) ∨ ∃ u ∈ upper, u.2 = e.2 := by
  rcases List.mem_append.mp member with own | new
  · obtain ⟨b, among, rfl⟩ := List.mem_map.mp own
    cases found : get? upper b.1 with
    | none => exact Or.inl ⟨b, among, by simp⟩
    | some v =>
      obtain ⟨key, stated, -⟩ := mem_of_get?_eq_some found
      exact Or.inr ⟨(key, v), stated, by simp⟩
  · exact Or.inr ⟨e, (List.mem_filter.mp new).1, rfl⟩

theorem keyed_merge {base upper : Entries β} (keyed : Keyed base) (otherKeys : Keyed upper) :
    Keyed (merge base upper) := by
  intro e member
  rcases List.mem_append.mp member with own | new
  · obtain ⟨b, among, rfl⟩ := List.mem_map.mp own
    exact keyed b among
  · exact otherKeys e (List.mem_filter.mp new).1

theorem distinct_merge {base upper : Entries β} (distinct : Distinct base)
    (others : Distinct upper) : Distinct (merge base upper) := by
  rw [Distinct, merge, List.pairwise_append]
  refine ⟨distinct.map _, others.filter _, fun e own f new => ?_⟩
  obtain ⟨b, among, rfl⟩ := List.mem_map.mp own
  have absent : has base f.1 = false := by simpa using (List.mem_filter.mp new).2
  exact (has_eq_false_iff base f.1).mp absent b among

/-- Values that are replaced by those of another mapping. -/
theorem get?_map_getD (upper : Entries β) {es : Entries β} (keyed : Keyed es) {key : Value}
    (hashable : key.hashable = true) :
    get? (es.map fun e => (e.1, (get? upper e.1).getD e.2)) key =
      (get? es key).map ((get? upper key).getD ·) := by
  induction es with
  | nil => rfl
  | cons e rest ih =>
    obtain ⟨first, restKeys⟩ := Keyed.cons_iff.mp keyed
    rw [List.map_cons, get?, get?, ih restKeys]
    by_cases same : Value.same e.1 key = true
    · simp only [same, ↓reduceIte, Option.map_some, get?_congr first hashable same]
    · simp only [same, Bool.false_eq_true, ↓reduceIte]

/-- Leaving out the keys of another mapping leaves a key that is not among them. -/
theorem get?_filter_has {base es : Entries β} (keyed : Keyed es) {key : Value}
    (hashable : key.hashable = true) (absent : has base key = false) :
    get? (es.filter fun e => !has base e.1) key = get? es key := by
  induction es with
  | nil => rfl
  | cons e rest ih =>
    obtain ⟨first, restKeys⟩ := Keyed.cons_iff.mp keyed
    by_cases same : Value.same e.1 key = true
    · have alike : has base e.1 = false := by
        rw [has, get?_congr first hashable same, ← has, absent]
      rw [List.filter_cons_of_pos (by simp [alike]), get?, get?, if_pos same, if_pos same]
    · rw [get?, if_neg same, ← ih restKeys, List.filter_cons]
      split
      · rw [get?, if_neg same]
      · rfl

/-- Under a key stands what the second mapping has there, and else what the first has. -/
theorem get?_merge {base upper : Entries β} (keyed : Keyed base) (otherKeys : Keyed upper)
    {key : Value} (hashable : key.hashable = true) :
    get? (merge base upper) key = (get? upper key).or (get? base key) := by
  rw [merge, get?_append, get?_map_getD upper keyed hashable]
  cases found : get? base key with
  | none =>
    have absent : has base key = false := by rw [has, found, Option.isSome_none]
    rw [get?_filter_has otherKeys hashable absent]
    simp
  | some v => cases get? upper key <;> rfl

end AccessGroups.Entries
