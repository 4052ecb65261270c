import AccessGroups.Text.Blank
import Mathlib.Data.List.DropRight

/-!
Single-spaced texts. To put the words of a text side by side with one space between is to replace every
run of blanks by one space and to leave out what blanks then stand at the ends. In the result every blank is
a space between two other characters, and a text of which that is true is left as it is.
-/

set_option autoImplicit false

namespace AccessGroups.Text

/-- A text with every run of blanks replaced by one space; `inRun` tells whether a run goes on. -/
def collapsedFrom (inRun : Bool) : List Char → List Char
  | [] => []
  | c :: cs =>
    if isBlank c then (if inRun then [] else [' ']) ++ collapsedFrom true cs
    else c :: collapsedFrom false cs

def collapsed (cs : List Char) : List Char := collapsedFrom false cs

def trimmed (cs : List Char) : List Char := (cs.dropWhile isBlank).rdropWhile isBlank

/-- Every blank is a space, and what stands on either side of it is no blank. -/
def SingleSpaced (cs : List Char) : Prop :=
  ∀ before c after, cs = before ++ c :: after → isBlank c = true →
    c = ' ' ∧ (∃ d, before.getLast? = some d ∧ isBlank d = false) ∧
      ∃ e, after.head? = some e ∧ isBlank e = false

theorem pieces_ne_nil (cs : List Char) : pieces cs ≠ [] := by
  cases cs with
  | nil => exact List.cons_ne_nil _ _
  | cons c cs =>
    rw [pieces]
    split
    · exact List.cons_ne_nil _ _
    · split <;> exact List.cons_ne_nil _ _

theorem pieces_cons_of_blank {c : Char} (blank : isBlank c = true) (cs : List Char) :
    pieces (c :: cs) = [] :: pieces cs := by
  rw [pieces, if_pos blank]

theorem pieces_cons_of_word {c : Char} (word : isBlank c = false) {cs piece : List Char}
    {rest : List (List Char)} (split : pieces cs = piece :: rest) :
    pieces (c :: cs) = (c :: piece) :: rest := by
  rw [pieces, if_neg (by rw [word]; exact Bool.false_ne_true), split]

theorem ne_nil_of_mem_words {cs word : List Char} (member : word ∈ words cs) : word ≠ [] := by
  have some := (List.mem_filter.mp member).2
  rintro rfl
  cases some

/-- Blanks before a text do not change its words. -/
theorem singleSpaced_cons_of_blank {c : Char} (blank : isBlank c = true) (cs : List Char) :
    singleSpaced (c :: cs) = singleSpaced cs := by
  rw [singleSpaced, words, pieces_cons_of_blank blank, List.filter_cons_of_neg (by simp)]
  rfl

/-- What stands in a single-spaced text after a character of a word, of a text that goes on with `cs`. -/
def afterWord (cs : List Char) : List Char :=
  if cs.head?.any isBlank && !(singleSpaced cs).isEmpty then ' ' :: singleSpaced cs
  else singleSpaced cs

theorem afterWord_cons_of_blank {c : Char} (blank : isBlank c = true) (cs : List Char) :
    afterWord (c :: cs) = if singleSpaced cs = [] then [] else ' ' :: singleSpaced cs := by
  rw [afterWord, singleSpaced_cons_of_blank blank]
  cases spaced : singleSpaced cs <;> simp [blank]

theorem afterWord_cons_of_word {c : Char} (word : isBlank c = false) (cs : List Char) :
    afterWord (c :: cs) = singleSpaced (c :: cs) := by
  simp [afterWord, word]

/-- Words with a space between neighbours make no text just when there are none. -/
theorem intercalate_words_eq_nil_iff (cs : List Char) :
    [' '].intercalate (words cs) = [] ↔ words cs = [] := by
  cases listed : words cs with
  | nil => simp
  | cons word rest =>
    have member : word ∈ words cs := by simp [listed]
    have some : word ≠ [] := ne_nil_of_mem_words member
    cases rest <;> simp [some]

theorem singleSpaced_cons_of_word {c : Char} (word : isBlank c = false) (cs : List Char) :
    singleSpaced (c :: cs) = c :: afterWord cs := by
  cases cs with
  | nil =>
    rw [singleSpaced, words, pieces_cons_of_word word rfl]
    rfl
  | cons d cs =>
    obtain ⟨piece, rest, split⟩ := List.exists_cons_of_ne_nil (pieces_ne_nil cs)
    by_cases blank : isBlank d = true
    · have parts : words (c :: d :: cs) = [c] :: words cs := by
        rw [words, pieces_cons_of_word word (pieces_cons_of_blank blank cs)]
        rfl
      rw [afterWord_cons_of_blank blank, singleSpaced, parts, singleSpaced]
      simp only [intercalate_words_eq_nil_iff]
      cases words cs with
      | nil => rfl
      | cons first others => simp
    · rw [Bool.not_eq_true] at blank
      have here : words (d :: cs) = (d :: piece) :: rest.filter (!·.isEmpty) := by
        rw [words, pieces_cons_of_word blank split]
        rfl
      have longer : words (c :: d :: cs) = (c :: d :: piece) :: rest.filter (!·.isEmpty) := by
        rw [words, pieces_cons_of_word word (pieces_cons_of_word blank split)]
        rfl
      rw [afterWord_cons_of_word blank, singleSpaced, singleSpaced, longer, here]
      cases rest.filter (!·.isEmpty) <;> simp

theorem afterWord_cases (cs : List Char) :
    afterWord cs = singleSpaced cs ∨
      singleSpaced cs ≠ [] ∧ afterWord cs = ' ' :: singleSpaced cs := by
  unfold afterWord
  split
  case isTrue spaced => exact .inr ⟨by simp_all, rfl⟩
  case isFalse => exact .inl rfl

section Trimming

theorem dropWhile_collapsedFrom_true (cs : List Char) :
    (collapsedFrom true cs).dropWhile isBlank = collapsedFrom true cs := by
  induction cs with
  | nil => rfl
  | cons c cs ih =>
    rw [collapsedFrom]
    split
    · exact ih
    · next word => rw [List.dropWhile_cons_of_neg word]

/-- Leading blanks go with the run that they are in. -/
theorem dropWhile_collapsed (cs : List Char) :
    (collapsed cs).dropWhile isBlank = collapsedFrom true cs := by
  cases cs with
  | nil => rfl
  | cons c cs =>
    by_cases blank : isBlank c = true
    · simp only [collapsed, collapsedFrom, blank, if_true, Bool.false_eq_true, if_false,
        List.singleton_append, List.nil_append]
      rw [List.dropWhile_cons_of_pos (by decide), dropWhile_collapsedFrom_true]
    · simp only [collapsed, collapsedFrom, if_neg blank]
      rw [List.dropWhile_cons_of_neg blank]

theorem rdropWhile_cons (p : Char → Bool) (c : Char) (cs : List Char) :
    (c :: cs).rdropWhile p =
      if cs.rdropWhile p = [] then [c].rdropWhile p else c :: cs.rdropWhile p := by
  simp only [List.rdropWhile, List.reverse_cons, List.dropWhile_append, List.reverse_eq_nil_iff,
    List.isEmpty_iff]
  split <;> simp

/-- What trimming leaves of a collapsed text, at the start of a word and after a character of one. -/
theorem rdropWhile_collapsedFrom (cs : List Char) :
    (collapsedFrom true cs).rdropWhile isBlank = singleSpaced cs ∧
      (collapsedFrom false cs).rdropWhile isBlank = afterWord cs := by
  induction cs with
  | nil => exact ⟨rfl, rfl⟩
  | cons c cs ih =>
    obtain ⟨outside, inside⟩ := ih
    by_cases blank : isBlank c = true
    · rw [singleSpaced_cons_of_blank blank, afterWord_cons_of_blank blank]
      simp only [collapsedFrom, blank, if_true, Bool.false_eq_true, if_false, List.nil_append,
        List.singleton_append]
      refine ⟨outside, ?_⟩
      rw [rdropWhile_cons, outside]
      rfl
    · rw [Bool.not_eq_true] at blank
      rw [afterWord_cons_of_word blank, singleSpaced_cons_of_word blank]
      simp only [collapsedFrom, blank, Bool.false_eq_true, if_false, and_self]
      rw [rdropWhile_cons, inside, List.rdropWhile_singleton, blank]
      split
      case isTrue none => rw [none]; rfl
      case isFalse => rfl

/-- To join the words of a text by single spaces is to collapse its runs of blanks and to trim it. -/
theorem singleSpaced_eq_trimmed (cs : List Char) : singleSpaced cs = trimmed (collapsed cs) := by
  rw [trimmed, dropWhile_collapsed, (rdropWhile_collapsedFrom cs).1]

end Trimming

namespace SingleSpaced

variable {c : Char} {cs : List Char}

theorem nil : SingleSpaced [] := by
  intro before c after split
  simp at split

theorem head_word (spaced : SingleSpaced (c :: cs)) : isBlank c = false := by
  by_contra blank
  obtain ⟨-, ⟨d, last, -⟩, -⟩ := spaced [] c cs rfl (by simpa using blank)
  cases last

/-- What starts with a character of a word and ends a single-spaced text is one. -/
theorem suffix (front : List Char) (spaced : SingleSpaced (front ++ c :: cs))
    (word : isBlank c = false) : SingleSpaced (c :: cs) := by
  intro before b after split blank
  cases before with
  | nil =>
    obtain ⟨rfl, -⟩ := List.cons.inj split
    rw [word] at blank
    cases blank
  | cons _ rest =>
    have whole : front ++ c :: cs = (front ++ c :: rest) ++ b :: after := by
      obtain ⟨rfl, tail⟩ := List.cons.inj split
      simp [tail]
    obtain ⟨space, left, right⟩ := spaced _ b after whole blank
    obtain ⟨rfl, -⟩ := List.cons.inj split
    exact ⟨space, by simpa [List.getLast?_append] using left, right⟩

theorem cons_of_word (word : isBlank c = false) (rest : SingleSpaced cs) :
    SingleSpaced (c :: cs) := by
  intro before b after split blank
  cases before with
  | nil =>
    obtain ⟨rfl, -⟩ := List.cons.inj split
    rw [word] at blank
    cases blank
  | cons _ front =>
    obtain ⟨space, ⟨d, last, left⟩, right⟩ := rest front b after (List.cons.inj split).2 blank
    exact ⟨space, ⟨d, by simp [List.getLast?_cons, last], left⟩, right⟩

/-- A space goes between a character of a word and a text that is not empty. -/
theorem cons_gap (word : isBlank c = false) (rest : SingleSpaced cs) (some : cs ≠ []) :
    SingleSpaced (c :: ' ' :: cs) := by
  obtain ⟨e, cs, rfl⟩ := List.exists_cons_of_ne_nil some
  intro before b after split blank
  match before, split with
  | [], split =>
    obtain ⟨rfl, -⟩ := List.cons.inj split
    rw [word] at blank
    cases blank
  | [_], split =>
    obtain ⟨rfl, gap⟩ := List.cons.inj split
    obtain ⟨rfl, rfl⟩ := List.cons.inj gap
    exact ⟨rfl, ⟨c, rfl, word⟩, e, rfl, rest.head_word⟩
  | _ :: _ :: front, split =>
    have behind : e :: cs = front ++ b :: after := (List.cons.inj (List.cons.inj split).2).2
    obtain ⟨space, ⟨d, last, left⟩, right⟩ := rest front b after behind blank
    exact ⟨space, ⟨d, by simp [List.getLast?_cons, last], left⟩, right⟩

/-- A single-spaced text may be cut anywhere, also next to a space, where a character of a word is put. -/
theorem take_append (spaced : SingleSpaced cs) (count : Nat) {mark : Char}
    (word : isBlank mark = false) : SingleSpaced (cs.take count ++ [mark]) := by
  intro before b after split blank
  have other : b ≠ mark := by
    rintro rfl
    rw [word] at blank
    cases blank
  obtain ⟨more, -, behind⟩ | ⟨more, kept, behind⟩ := List.append_eq_append_iff.mp split
  · -- the blank would be the character put
    obtain ⟨-, single⟩ | ⟨_, -, empty⟩ := List.cons_eq_append_iff.mp behind
    · exact absurd (List.cons.inj single).1 other
    · simp at empty
  · obtain ⟨-, single⟩ | ⟨between, rfl, rfl⟩ := List.cons_eq_append_iff.mp behind
    · exact absurd (List.cons.inj single).1.symm other
    · have whole : cs = before ++ b :: (between ++ cs.drop count) := by
        conv_lhs => rw [← List.take_append_drop count cs, kept]
        simp
      obtain ⟨space, left, e, next, right⟩ := spaced before b _ whole blank
      refine ⟨space, left, ?_⟩
      cases between with
      | nil => exact ⟨mark, rfl, word⟩
      | cons first _ =>
        obtain rfl : first = e := by simpa using next
        exact ⟨first, rfl, right⟩

/-- Words joined by single spaces are a single-spaced text. -/
theorem of_singleSpaced (cs : List Char) : SingleSpaced (singleSpaced cs) := by
  induction cs with
  | nil => exact nil
  | cons c cs ih =>
    by_cases blank : isBlank c = true
    · rw [singleSpaced_cons_of_blank blank]
      exact ih
    · rw [Bool.not_eq_true] at blank
      rw [singleSpaced_cons_of_word blank]
      obtain joined | ⟨some, gap⟩ := afterWord_cases cs
      · rw [joined]
        exact cons_of_word blank ih
      · rw [gap]
        exact cons_gap blank ih some

end SingleSpaced

theorem singleSpaced_eq_self : ∀ {cs : List Char}, SingleSpaced cs → singleSpaced cs = cs
  | [], _ => rfl
  | [c], spaced => by
    rw [singleSpaced_cons_of_word spaced.head_word]
    rfl
  | c :: d :: cs, spaced => by
    rw [singleSpaced_cons_of_word spaced.head_word]
    by_cases blank : isBlank d = true
    · obtain ⟨rfl, -, e, next, word⟩ := spaced [c] d cs rfl blank
      obtain ⟨cs, rfl⟩ : ∃ rest, cs = e :: rest := by
        cases cs with
        | nil => cases next
        | cons _ rest =>
          obtain rfl := Option.some.inj next
          exact ⟨rest, rfl⟩
      have kept : singleSpaced (e :: cs) = e :: cs :=
        singleSpaced_eq_self (SingleSpaced.suffix [c, ' '] spaced word)
      rw [afterWord_cons_of_blank blank, kept]
      rfl
    · rw [Bool.not_eq_true] at blank
      rw [afterWord_cons_of_word blank,
        singleSpaced_eq_self (SingleSpaced.suffix [c] spaced blank)]

end AccessGroups.Text
