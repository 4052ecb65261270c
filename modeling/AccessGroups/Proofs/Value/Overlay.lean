import AccessGroups.Proofs.Value.Mapping

/-!
Named values laid over others. A value under a name that is there takes the place of the one before it,
and the others follow in order. Putting named values into a mapping one after another comes to this.
-/

set_option autoImplicit false

namespace AccessGroups

section

variable {β γ : Type}

def namesOf (es : List (String × β)) : List String := es.map Prod.fst

@[simp] theorem namesOf_nil : namesOf ([] : List (String × β)) = [] := rfl

@[simp] theorem namesOf_cons (e : String × β) (es : List (String × β)) :
    namesOf (e :: es) = e.1 :: namesOf es := rfl

/-- Named values with others laid over them. -/
def overlay (base upper : List (String × β)) : List (String × β) :=
  base.map (fun e => (e.1, (upper.lookup e.1).getD e.2)) ++ upper.filter fun e => e.1 ∉ namesOf base

theorem lookup_cons_eq_ite (e : String × β) (es : List (String × β)) (name : String) :
    (e :: es).lookup name = if name = e.1 then some e.2 else es.lookup name := by
  rw [List.lookup_cons]
  by_cases same : name = e.1
  · simp [same]
  · rw [if_neg same, beq_eq_false_iff_ne.mpr same]

theorem lookup_eq_none_iff_not_mem (es : List (String × β)) (name : String) :
    es.lookup name = none ↔ name ∉ namesOf es := by
  rw [List.lookup_eq_none_iff, namesOf, List.mem_map, not_exists]
  simp only [bne_iff_ne, not_and]
  exact forall₂_congr fun _ _ => ne_comm

theorem mem_namesOf_of_lookup {es : List (String × β)} {name : String} {v : β}
    (found : es.lookup name = some v) : name ∈ namesOf es := by
  rcases Decidable.em (name ∈ namesOf es) with present | absent
  · exact present
  · rw [(lookup_eq_none_iff_not_mem es name).mpr absent] at found
    cases found

theorem namesOf_map (f : String → β → γ) (es : List (String × β)) :
    namesOf (es.map fun e => (e.1, f e.1 e.2)) = namesOf es := by
  simp only [namesOf, List.map_map]
  rfl

theorem lookup_map (f : String → β → γ) (es : List (String × β)) (name : String) :
    (es.map fun e => (e.1, f e.1 e.2)).lookup name = (es.lookup name).map (f name) := by
  induction es with
  | nil => rfl
  | cons e rest ih =>
    rw [List.map_cons, lookup_cons_eq_ite, lookup_cons_eq_ite, ih]
    by_cases same : name = e.1 <;> simp [same]

theorem lookup_filter (p : String → Bool) (es : List (String × β)) (name : String) :
    (es.filter fun e => p e.1).lookup name = if p name then es.lookup name else none := by
  induction es with
  | nil => simp
  | cons e rest ih =>
    rw [List.filter_cons, lookup_cons_eq_ite]
    by_cases same : name = e.1
    · subst same
      cases kept : p e.1 <;> simp [kept, ih, lookup_cons_eq_ite]
    · cases kept : p e.1 <;> simp [same, ih, lookup_cons_eq_ite]

theorem namesOf_overlay (base upper : List (String × β)) :
    namesOf (overlay base upper) = namesOf base ++ (namesOf upper).filter (· ∉ namesOf base) := by
  simp only [overlay, namesOf, List.map_append, List.map_map, List.filter_map]
  rfl

theorem nodup_overlay {base upper : List (String × β)} (distinct : (namesOf base).Nodup)
    (others : (namesOf upper).Nodup) : (namesOf (overlay base upper)).Nodup := by
  rw [namesOf_overlay, List.nodup_append]
  refine ⟨distinct, others.filter _, ?_⟩
  rintro name here _ member rfl
  simp_all

/-- A name has the value that is laid over it, if there is one, and else its own. -/
theorem lookup_overlay (base upper : List (String × β)) (name : String) :
    (overlay base upper).lookup name = (upper.lookup name).or (base.lookup name) := by
  rw [overlay, List.lookup_append, lookup_map fun name v => (upper.lookup name).getD v,
    lookup_filter fun name => name ∉ namesOf base]
  cases own : base.lookup name with
  | none =>
    rw [lookup_eq_none_iff_not_mem] at own
    simp [own]
  | some v => cases upper.lookup name <;> rfl

/-- Distinct names in order and the value of each name are all that named values are. -/
theorem eq_of_lookup {es fs : List (String × β)} (names : namesOf es = namesOf fs)
    (distinct : (namesOf es).Nodup) (values : ∀ name, es.lookup name = fs.lookup name) : es = fs := by
  induction es generalizing fs with
  | nil => exact (List.map_eq_nil_iff.mp names.symm).symm
  | cons e rest ih =>
    cases fs with
    | nil => cases names
    | cons f others =>
      obtain ⟨first, names⟩ := List.cons_eq_cons.mp names
      obtain ⟨absent, distinct⟩ := List.nodup_cons.mp distinct
      have here := values e.1
      rw [lookup_cons_eq_ite, lookup_cons_eq_ite, if_pos rfl, if_pos first] at here
      refine List.cons_eq_cons.mpr ⟨Prod.ext first (Option.some.inj here),
        ih names distinct fun name => ?_⟩
      by_cases same : name = e.1
      · subst same
        rw [(lookup_eq_none_iff_not_mem rest _).mpr absent,
          (lookup_eq_none_iff_not_mem others _).mpr (by rwa [namesOf, ← names])]
      · have there := values name
        rwa [lookup_cons_eq_ite, lookup_cons_eq_ite, if_neg same, if_neg (first ▸ same)] at there

theorem overlay_cons {base rest : List (String × β)} {e : String × β}
    (distinct : (namesOf base).Nodup) (others : (namesOf (e :: rest)).Nodup) :
    overlay base (e :: rest) = overlay (overlay base [e]) rest := by
  obtain ⟨single, -⟩ := List.nodup_cons.mp others
  -- The names come in the same order on both sides, and each has the same value.
  refine eq_of_lookup ?_ (nodup_overlay distinct others) fun name => ?_
  · have apart : (namesOf rest).filter (fun name => name ∉ namesOf base ++ [e.1]) =
        (namesOf rest).filter (fun name => name ∉ namesOf base) := by
      refine List.filter_congr fun name member => ?_
      have other : name ≠ e.1 := fun same => single (same ▸ member)
      simp [other]
    simp only [namesOf_overlay, namesOf_cons, namesOf_nil]
    by_cases present : e.1 ∈ namesOf base
    · simp [present]
    · have kept : [e.1].filter (fun name => name ∉ namesOf base) = [e.1] := by simp [present]
      rw [kept, apart, List.append_assoc]
      simp [present]
  · rw [lookup_overlay, lookup_overlay, lookup_overlay, lookup_cons_eq_ite, lookup_cons_eq_ite]
    by_cases same : name = e.1
    · rw [same, (lookup_eq_none_iff_not_mem rest e.1).mpr single]
      simp
    · simp [same]

theorem overlay_map (f : β → γ) (base upper : List (String × β)) :
    (overlay base upper).map (fun e => (e.1, f e.2)) =
      overlay (base.map fun e => (e.1, f e.2)) (upper.map fun e => (e.1, f e.2)) := by
  rw [overlay, overlay, List.map_append, List.map_map, List.map_map, List.filter_map,
    namesOf_map fun _ => f]
  congr 1
  refine List.map_congr_left fun e _ => ?_
  simp only [Function.comp]
  rw [lookup_map fun _ => f]
  cases upper.lookup e.1 <;> rfl

end

namespace Entries

theorem get?_ofNamed (es : List (String × Value)) (name : String) :
    get? (ofNamed es) (.text name) = es.lookup name := by
  induction es with
  | nil => rfl
  | cons e rest ih =>
    rw [ofNamed_cons, get?, ih, lookup_cons_eq_ite, Value.same_text]
    by_cases same : name = e.1
    · rw [if_pos same, if_pos (beq_iff_eq.mpr same.symm)]
    · rw [if_neg same, if_neg fun equal => same (beq_iff_eq.mp equal).symm]

theorem distinct_ofNamed {es : List (String × Value)} (distinct : (namesOf es).Nodup) :
    Distinct (ofNamed es) := by
  unfold Distinct ofNamed
  rw [List.pairwise_map]
  refine (List.pairwise_map.mp distinct).imp fun different => ?_
  simpa using different

theorem put_ofNamed {es : List (String × Value)} (distinct : (namesOf es).Nodup)
    (e : String × Value) :
    put (ofNamed es) (.text e.1) e.2 = ofNamed (overlay es [e]) := by
  have single (name : String) : [e].lookup name = if name = e.1 then some e.2 else none :=
    lookup_cons_eq_ite e [] name
  cases found : es.lookup e.1 with
  | none =>
    have absent := (lookup_eq_none_iff_not_mem es e.1).mp found
    have kept : es.map (fun f => (f.1, ([e].lookup f.1).getD f.2)) = es := by
      refine (List.map_congr_left fun f member => ?_).trans (List.map_id es)
      have other : f.1 ≠ e.1 := fun same => absent (same ▸ List.mem_map_of_mem member)
      simp [single, other]
    rw [put_of_get?_eq_none _ _ _ ((get?_ofNamed es e.1).trans found), overlay, kept,
      ofNamed_append]
    simp [absent, ofNamed]
  | some v =>
    have present := mem_namesOf_of_lookup found
    have replaced := put_eq_map (distinct_ofNamed distinct) (fun _ => e.2) rfl
      ((get?_ofNamed es e.1).trans found)
    rw [replaced, overlay]
    simp only [present, not_true_eq_false, decide_false, List.filter_cons_of_neg, Bool.false_eq_true,
      not_false_eq_true, List.filter_nil, List.append_nil, ofNamed, List.map_map]
    refine List.map_congr_left fun f _ => ?_
    by_cases same : f.1 = e.1 <;> simp [single, same]

/-- Putting named values into a mapping one after another lays them over it. -/
theorem foldl_put_ofNamed {base upper : List (String × Value)}
    (distinct : (namesOf base).Nodup) (others : (namesOf upper).Nodup) :
    (ofNamed upper).foldl (fun done e => put done e.1 e.2) (ofNamed base) =
      ofNamed (overlay base upper) := by
  induction upper generalizing base with
  | nil => simp [overlay]
  | cons e rest ih =>
    rw [ofNamed_cons, List.foldl_cons, put_ofNamed distinct e,
      ih (nodup_overlay distinct (by simp)) (List.nodup_cons.mp others).2,
      ← overlay_cons distinct others]

end Entries

end AccessGroups
