import AccessGroups.Log.Template

/-!
What templates write. A conversion fills its width whatever it shows. A text whose percent signs are written
twice is written as it is, wherever it stands outside of conversions.
-/

set_option autoImplicit false

namespace AccessGroups.Log

namespace Conversion

variable (c : Conversion)

theorem width_le_length_fitText (cs : List Char) : c.width ≤ (c.fitText cs).length := by
  unfold fitText
  cases c.left <;> simp <;> omega

theorem width_le_length_fitNumber (negative : Bool) (mark digits : List Char) :
    c.width ≤ (c.fitNumber negative mark digits).length := by
  unfold fitNumber
  split
  · simp
    omega
  · exact c.width_le_length_fitText _

theorem width_le_length_real (form : Decimal.Scaled → Bool → Nat → List Char)
    (x : Decimal.Reading) : c.width ≤ (c.real form x).length := by
  cases x <;> exact c.width_le_length_fitNumber _ _ _

theorem width_le_length_of_map {α : Type} {given : Except Misuse α} {shown : α → List Char}
    {cs : List Char} (filled : ∀ a, c.width ≤ (shown a).length) (made : given.map shown = .ok cs) :
    c.width ≤ cs.length := by
  cases given with
  | error misuse => cases made
  | ok a =>
    cases made
    exact filled a

/-- Every conversion of an argument is at least as long as its width. -/
theorem width_le_length_convert {letter : Char} {v : Value} {cs : List Char}
    (made : c.convert letter v = .ok cs) : c.width ≤ cs.length := by
  have based (base : Nat) (mark : Char) (n : Int) : c.width ≤ (c.based base mark n).length :=
    c.width_le_length_fitNumber _ _ _
  have raised {α : Type} {shown : α → List Char} (filled : ∀ a, c.width ≤ (shown a).length) (a : α) :
      c.width ≤ ((shown a).map Char.toUpper).length := by
    rw [List.length_map]
    exact filled a
  unfold convert at made
  -- One case per letter, in the order of the definition.
  split at made
  case h_1 | h_2 | h_3 =>
    cases made
    exact c.width_le_length_fitText _
  case h_4 => exact c.width_le_length_of_map (fun _ => c.width_le_length_fitText _) made
  case h_5 | h_6 | h_7 => exact c.width_le_length_of_map (fun _ => c.width_le_length_fitNumber _ _ _) made
  case h_8 | h_9 => exact c.width_le_length_of_map (based _ _) made
  case h_10 => exact c.width_le_length_of_map (raised (based _ _)) made
  case h_11 | h_12 | h_13 => exact c.width_le_length_of_map (c.width_le_length_real _) made
  case h_14 | h_15 | h_16 => exact c.width_le_length_of_map (raised (c.width_le_length_real _)) made
  case h_17 => cases made

end Conversion

/-- One step: what it writes stands in front of what the rest of the template writes. -/
theorem expandFrom_cons {place : TemplatePlace} {a : Arguments} {ch : Char} {step : TemplateStep}
    (read : place.step a ch = .ok step) (rest : List Char) :
    expandFrom place a (ch :: rest) =
      (expandFrom step.place step.arguments rest).map (step.written ++ ·) := by
  rw [expandFrom, read]
  show (expandFrom step.place step.arguments rest >>= fun after => pure (step.written ++ after)) = _
  cases expandFrom step.place step.arguments rest <;> rfl

theorem map_append_map (result : Except Misuse (List Char)) (xs ys : List Char) :
    (result.map (ys ++ ·)).map (xs ++ ·) = result.map (xs ++ ys ++ ·) := by
  cases result with
  | error misuse => rfl
  | ok cs => simp [Except.map]

/-- A text with its percent signs written twice. -/
def escapedPercent (cs : List Char) : List Char :=
  cs.flatMap fun ch => if ch = '%' then ['%', '%'] else [ch]

/-- A text that is escaped is written as it is, in front of what the rest of a template writes. -/
theorem expandFrom_escaped (a : Arguments) (cs rest : List Char) :
    expandFrom .outside a (escapedPercent cs ++ rest) =
      (expandFrom .outside a rest).map (cs ++ ·) := by
  induction cs with
  | nil =>
    show expandFrom .outside a rest = _
    cases expandFrom .outside a rest <;> rfl
  | cons ch others ih =>
    by_cases percent : ch = '%'
    · subst percent
      have opened : TemplatePlace.outside.step a '%' = .ok ⟨[], .opened, a⟩ := rfl
      have closed : TemplatePlace.opened.step a '%' = .ok ⟨['%'], .outside, a⟩ := rfl
      show expandFrom .outside a ('%' :: '%' :: (escapedPercent others ++ rest)) = _
      rw [expandFrom_cons opened, expandFrom_cons closed, ih, map_append_map, map_append_map]
      rfl
    · have plain : TemplatePlace.outside.step a ch = .ok ⟨[ch], .outside, a⟩ := by
        simp [TemplatePlace.step, percent]
      have escaped : escapedPercent (ch :: others) = ch :: escapedPercent others := by
        simp [escapedPercent, percent]
      rw [escaped, List.cons_append, expandFrom_cons plain, ih, map_append_map]
      rfl

/-- An escaped template is a message of its own with any arguments that need not be used. -/
theorem expand_escaped (s : String) {arguments : Value} (given : arguments.truthy = true)
    (unneeded : (Arguments.ofValue arguments).exhaustive = false) :
    expand (.text (String.ofList (escapedPercent s.toList))) arguments = .ok s := by
  have finished : expandFrom .outside (Arguments.ofValue arguments) [] = .ok [] := by
    simp [expandFrom, TemplatePlace.finish, unneeded]
  have whole := expandFrom_escaped (.ofValue arguments) s.toList []
  rw [List.append_nil, finished] at whole
  rw [expand, if_pos given, Value.display_text, String.toList_ofList, whole]
  simp [Except.map]

end AccessGroups.Log
