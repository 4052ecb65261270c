import AccessGroups.Proofs.Json.Reader
import Mathlib.Algebra.Group.Nat.Defs
import Mathlib.Tactic.SplitIfs

/-!
What is written as JSON reads back as the value it was written for, and stands on one line. The reader
is followed over the parts of a written text: over a character of a string, over a string, over a word,
and from these over whole values, with what has not ended around them.
-/

set_option autoImplicit false

namespace AccessGroups.Json

/-! ## Strings -/

theorem hexValue?_hexDigit : ∀ n < 16, hexValue? (Text.hexDigit n) = some n := by decide

/-- Digits that do not complete a code unit are added to its amount. -/
theorem run_hexText (role : Role) (done : List Char) (around : List Frame)
    (amount missing width n : Nat) (small : n < 16 ^ width) :
    State.run (.inString role ⟨done, none, .unit (missing + 1 + width) amount⟩ around)
        (Text.hexText width n) =
      some (.inString role ⟨done, none, .unit (missing + 1) (16 ^ width * amount + n)⟩ around) := by
  -- The digit written last is the lowest one, so the digits before it are those of a sixteenth.
  induction width generalizing n missing with
  | zero => simp_all [Text.hexText]
  | succ width ih =>
    have shorter : n / 16 < 16 ^ width := by omega
    have digit := hexValue?_hexDigit (n % 16) (by omega)
    have total : 16 * (16 ^ width * amount + n / 16) + n % 16 = 16 ^ (width + 1) * amount + n := by
      rw [Nat.mul_add, Nat.add_assoc, Nat.div_add_mod, Nat.pow_succ, Nat.mul_right_comm,
        Nat.mul_comm 16]
    rw [Text.hexText, show missing + 1 + (width + 1) = missing + 1 + 1 + width by omega,
      State.run_append_of (ih (missing + 1) (n / 16) shorter)]
    simp [State.step, Scan.endedBy, Scan.next, digit, total]

/-- The four digits of a character are read as the character, unless they are half of a pair. -/
theorem run_unit (n : Nat) (small : n < 0xD800) (role : Role) (done : List Char)
    (around : List Frame) :
    State.run (.inString role ⟨done, none, .unit 4 0⟩ around) (Text.hexText 4 n) =
      some (.inString role ⟨Char.ofNat n :: done, none, .plain⟩ around) := by
  have first := run_hexText role done around 0 0 3 (n / 16) (by omega)
  have digit := hexValue?_hexDigit (n % 16) (by omega)
  have total : 16 * (n / 16) + n % 16 = n := Nat.div_add_mod n 16
  have high : isHighHalf n = false := by simp [isHighHalf]; omega
  have low : isLowHalf n = false := by simp [isLowHalf]; omega
  rw [Text.hexText, State.run_append_of first]
  simp [State.step, Scan.endedBy, Scan.next, digit, total, Scan.addUnit, high, low, Scan.add]

/-- The characters that a letter after a backslash stands for, as far as they are written so. -/
def lettered : List Char := ['"', '\\', '\n', '\r', '\t', '\x0c', '\x08']

/-- How a character is written inside a string. -/
inductive Written (c : Char) : List Char → Prop
  | letter {letter : Char} (visible : 0x20 ≤ letter.toNat) (other : letter ≠ 'u')
      (meaning : escaped? letter = some c) : Written c ['\\', letter]
  | unit (control : c.toNat < 0x20) : Written c ('\\' :: 'u' :: Text.hexText 4 c.toNat)
  | itself (visible : 0x20 ≤ c.toNat) (quote : c ≠ '"') (backslash : c ≠ '\\') :
      Written c [c]

theorem written_escapeChar (c : Char) : Written c (escapeChar c) := by
  by_cases among : c ∈ lettered
  · simp only [lettered, List.mem_cons, List.not_mem_nil, or_false] at among
    rcases among with rfl | rfl | rfl | rfl | rfl | rfl | rfl <;>
      exact .letter (by decide) (by decide) rfl
  · have apart (d : Char) (member : d ∈ lettered) : c ≠ d := fun same => among (same ▸ member)
    simp only [escapeChar, beq_iff_eq, apart '"' (by decide), apart '\\' (by decide),
      apart '\n' (by decide), apart '\r' (by decide), apart '\t' (by decide),
      apart '\x0c' (by decide), apart '\x08' (by decide), ↓reduceIte]
    split
    · exact .unit ‹_›
    · exact .itself (by omega) (apart '"' (by decide)) (apart '\\' (by decide))

/-- A character reads back as itself inside a string. -/
theorem Written.run {c : Char} {cs : List Char} (written : Written c cs) (role : Role)
    (done : List Char) (around : List Frame) :
    State.run (.inString role ⟨done, none, .plain⟩ around) cs =
      some (.inString role ⟨c :: done, none, .plain⟩ around) := by
  cases written with
  | letter visible other meaning =>
    simp [State.step, Scan.endedBy, Scan.next, Scan.add, other, meaning]
  | unit control =>
    have entered : State.run (.inString role ⟨done, none, .plain⟩ around) ['\\', 'u'] =
        some (.inString role ⟨done, none, .unit 4 0⟩ around) := rfl
    rw [show '\\' :: 'u' :: Text.hexText 4 c.toNat = ['\\', 'u'] ++ Text.hexText 4 c.toNat from rfl,
      State.run_append_of entered, run_unit c.toNat (by omega), Char.ofNat_toNat]
  | itself visible quote backslash =>
    have solid : ¬ c.toNat < 0x20 := by omega
    simp [State.step, Scan.endedBy, Scan.next, Scan.add, quote, backslash, solid]

/-- A string reads back as its text. -/
theorem run_stringChars (cs : List Char) (role : Role) (around : List Frame) :
    State.run (.inString role .start around) (cs.flatMap escapeChar ++ ['"']) =
      some (State.afterString (String.ofList cs) around role) := by
  -- After each character the string is between two characters again, whatever was read before.
  have scanned (done : List Char) :
      State.run (.inString role ⟨done, none, .plain⟩ around) (cs.flatMap escapeChar) =
        some (.inString role ⟨cs.reverse ++ done, none, .plain⟩ around) := by
    induction cs generalizing done with
    | nil => rfl
    | cons c cs ih =>
      rw [List.flatMap_cons, State.run_append_of ((written_escapeChar c).run role done around), ih]
      simp
  rw [Scan.start, State.run_append_of (scanned [])]
  simp [State.step, Scan.endedBy, Scan.text]

/-! ## Words -/

/-- A text that the reader takes for one word. -/
structure IsWord (cs : List Char) : Prop where
  nonempty : cs ≠ []
  chars : ∀ c ∈ cs, isWordChar c = true

theorem IsWord.of_all {cs : List Char} (word : (!cs.isEmpty && cs.all isWordChar) = true) :
    IsWord cs := by
  rw [Bool.and_eq_true, List.all_eq_true] at word
  exact ⟨by simpa using word.1, word.2⟩

theorem IsWord.cons {c : Char} {cs : List Char} (word : IsWord cs) (first : isWordChar c = true) :
    IsWord (c :: cs) :=
  ⟨List.cons_ne_nil c cs, List.forall_mem_cons.mpr ⟨first, word.chars⟩⟩

theorem run_inWord {cs : List Char} (chars : ∀ c ∈ cs, isWordChar c = true) (reversed : List Char)
    (around : List Frame) :
    State.run (.inWord reversed around) cs = some (.inWord (cs.reverse ++ reversed) around) := by
  induction cs generalizing reversed with
  | nil => rfl
  | cons c cs ih =>
    obtain ⟨first, rest⟩ := List.forall_mem_cons.mp chars
    rw [State.run_cons, State.step, first, if_pos rfl, Option.bind_some, ih rest]
    simp

theorem ne_of_isWordChar {c d : Char} (word : isWordChar c = true) (other : isWordChar d = false) :
    c ≠ d := by
  rintro rfl
  exact Bool.noConfusion (word.symm.trans other)

theorem isBlank_of_isWordChar {c : Char} (word : isWordChar c = true) : isBlank c = false := by
  have apart (d : Char) (other : isWordChar d = false) := ne_of_isWordChar word other
  simp [isBlank, apart ' ' (by decide), apart '\t' (by decide), apart '\n' (by decide),
    apart '\r' (by decide)]

theorem enter_of_isWordChar {c : Char} (word : isWordChar c = true) (around : List Frame) :
    State.enter around c = some (.inWord [c] around) := by
  have apart (d : Char) (other : isWordChar d = false) := ne_of_isWordChar word other
  simp only [State.enter, beq_iff_eq, apart '"' (by decide), apart '[' (by decide),
    apart '\x7b' (by decide), word, ↓reduceIte]

theorem run_word {cs : List Char} (word : IsWord cs) (around : List Frame) :
    State.run (.beforeValue around) cs = some (.inWord cs.reverse around) := by
  obtain ⟨nonempty, chars⟩ := word
  cases cs with
  | nil => exact absurd rfl nonempty
  | cons c cs =>
    obtain ⟨first, rest⟩ := List.forall_mem_cons.mp chars
    rw [State.run_cons, State.step, isBlank_of_isWordChar first, if_neg Bool.false_ne_true,
      enter_of_isWordChar first, Option.bind_some, run_inWord rest, List.reverse_cons]

theorem isWordChar_of_isDigit {c : Char} (digit : c.isDigit = true) : isWordChar c = true := by
  simp [isWordChar, Char.isAlphanum, digit]

theorem isWordChar_of_mem_natural {n : Nat} {c : Char} (member : c ∈ (toString n).toList) :
    isWordChar c = true := by
  rw [Nat.toString_eq_ofList_toDigits, String.toList_ofList] at member
  exact isWordChar_of_isDigit (Nat.isDigit_of_mem_toDigits (by decide) (by decide) member)

theorem isWord_null : IsWord "null".toList := .of_all (by decide)

theorem isWord_bool (b : Bool) : IsWord (if b then "true" else "false").toList := by
  cases b <;> exact .of_all (by decide)

theorem isWord_natural (n : Nat) : IsWord (toString n).toList := by
  refine ⟨?_, fun c => isWordChar_of_mem_natural⟩
  rw [Nat.toString_eq_ofList_toDigits, String.toList_ofList]
  exact Nat.toDigits_ne_nil

theorem isWord_int (n : Int) : IsWord (toString n).toList := by
  cases n with
  | ofNat n => exact isWord_natural n
  | negSucc n =>
    have written : (toString (Int.negSucc n)).toList = '-' :: (toString (n + 1)).toList :=
      String.toList_append
    rw [written]
    exact (isWord_natural (n + 1)).cons (by decide)

theorem mem_of_mem_dropTrailingZeros {digits : List Char} {c : Char}
    (member : c ∈ Decimal.dropTrailingZeros digits) : c ∈ digits := by
  unfold Decimal.dropTrailingZeros at member
  split at member
  · exact List.mem_of_mem_take member
  · rw [List.mem_reverse] at member
    exact List.mem_reverse.mp ((List.dropWhile_sublist _).subset member)

theorem isWord_positional {digits : List Char} (chars : ∀ c ∈ digits, isWordChar c = true)
    (exponent : Int) : IsWord (Decimal.positional digits exponent) := by
  have point : isWordChar '.' = true := by decide
  have zero : isWordChar '0' = true := by decide
  have zeros (n : Nat) : ∀ c ∈ List.replicate n '0', isWordChar c = true :=
    fun c member => (List.eq_of_mem_replicate member) ▸ zero
  unfold Decimal.positional
  by_cases small : exponent < 0
  · rw [if_pos small]
    refine ⟨List.cons_ne_nil _ _, ?_⟩
    simp only [List.forall_mem_cons, List.forall_mem_append]
    exact ⟨zero, point, zeros _, chars⟩
  · simp only [if_neg small]
    split
    · refine ⟨by simp, ?_⟩
      simp only [List.forall_mem_cons, List.forall_mem_append]
      exact ⟨⟨chars, zeros _⟩, point, zero, by simp⟩
    · refine ⟨by simp, ?_⟩
      simp only [List.forall_mem_cons, List.forall_mem_append]
      exact ⟨fun c member => chars c (List.mem_of_mem_take member), point,
        fun c member => chars c (List.mem_of_mem_drop member)⟩

theorem isWord_scientific {digits : List Char} (chars : ∀ c ∈ digits, isWordChar c = true)
    (exponent : Int) : IsWord (Decimal.scientific digits exponent) := by
  have point : isWordChar '.' = true := by decide
  have zero : isWordChar '0' = true := by decide
  have mark : isWordChar 'e' = true := by decide
  have sign (negative : Prop) [Decidable negative] :
      isWordChar (if negative then '-' else '+') = true := by
    split <;> decide
  have magnitude := (isWord_natural exponent.natAbs).chars
  unfold Decimal.scientific
  refine ⟨by simp, ?_⟩
  simp only [List.forall_mem_cons, List.forall_mem_append]
  refine ⟨?_, mark, sign _, ?_⟩
  · rcases digits with _ | ⟨d, _ | ⟨next, rest⟩⟩
    · simp
    · simpa using chars
    · simp only [List.forall_mem_cons] at chars ⊢
      exact ⟨chars.1, point, chars.2⟩
  · split
    · exact List.forall_mem_cons.mpr ⟨zero, magnitude⟩
    · exact magnitude

theorem isWord_shortestPositive (m : Nat) (q : Int) : IsWord (Decimal.shortestPositive m q) := by
  have chars (d : Nat) : ∀ c ∈ Decimal.dropTrailingZeros (toString d).toList, isWordChar c = true :=
    fun c member => (isWord_natural d).chars c (mem_of_mem_dropTrailingZeros member)
  dsimp only [Decimal.shortestPositive]
  split
  · exact isWord_positional (chars _) _
  · exact isWord_scientific (chars _) _

theorem isWord_real (x : Decimal.Binary64) : IsWord (realText x).toList := by
  cases read : x.reading with
  | nan =>
    simp only [realText, read]
    exact .of_all (by decide)
  | infinite negative =>
    cases negative <;> simp only [realText, read] <;> exact .of_all (by decide)
  | finite negative m q =>
    have magnitude : IsWord (if m = 0 then ['0', '.', '0'] else Decimal.shortestPositive m q) := by
      split
      · exact .of_all (by decide)
      · exact isWord_shortestPositive m q
    simp only [realText, read, Decimal.Binary64.shortest, String.toList_ofList]
    cases negative
    · exact magnitude
    · exact magnitude.cons (by decide)

/-! ## Values -/

mutual

/-- What the JSON text of a value says. -/
def tree : Value → Tree
  | .null => .word "null".toList
  | .bool b => .word (if b then "true" else "false").toList
  | .int n => .word (toString n).toList
  | .real x => .word (realText x).toList
  | .text s => .text s
  | .bytes bs => .text (Text.quotedBytes bs)
  | .list items => .array (itemTrees items)
  | .tuple items => .array (itemTrees items)
  | .map entries => .object (memberTrees entries)

def itemTrees : List Value → List Tree
  | [] => []
  | v :: vs => tree v :: itemTrees vs

def memberTrees : List (Value × Value) → List (String × Tree)
  | [] => []
  | (k, v) :: es => ((keyText? k).getD "", tree v) :: memberTrees es

end

theorem itemChars?_of_more {v w : Value} {vs : List Value} {cs : List Char}
    (written : itemChars? (v :: w :: vs) = some cs) :
    ∃ first rest, chars? v = some first ∧ itemChars? (w :: vs) = some rest ∧
      cs = first ++ ',' :: ' ' :: rest := by
  simp only [itemChars?, Option.bind_eq_bind, Option.bind_eq_some_iff, Option.pure_def,
    Option.some.injEq] at written
  obtain ⟨first, here, rest, later, rfl⟩ := written
  exact ⟨first, rest, here, later, rfl⟩

theorem entryChars?_of_last {k v : Value} {cs : List Char}
    (written : entryChars? [(k, v)] = some cs) :
    ∃ name value, keyText? k = some name ∧ chars? v = some value ∧
      cs = stringChars name.toList ++ ':' :: ' ' :: value := by
  simp only [entryChars?, Option.bind_eq_bind, Option.bind_eq_some_iff, Option.pure_def,
    Option.some.injEq] at written
  obtain ⟨name, named, value, here, rfl⟩ := written
  exact ⟨name, value, named, here, rfl⟩

theorem entryChars?_of_more {k v : Value} {e : Value × Value} {es : List (Value × Value)}
    {cs : List Char} (written : entryChars? ((k, v) :: e :: es) = some cs) :
    ∃ name value rest, keyText? k = some name ∧ chars? v = some value ∧
      entryChars? (e :: es) = some rest ∧
      cs = stringChars name.toList ++ ':' :: ' ' :: value ++ ',' :: ' ' :: rest := by
  simp only [entryChars?, Option.bind_eq_bind, Option.bind_eq_some_iff, Option.pure_def,
    Option.some.injEq] at written
  obtain ⟨name, named, value, here, rest, later, rfl⟩ := written
  exact ⟨name, value, rest, named, here, later, rfl⟩

theorem exists_entryChars?_cons {k v : Value} {es : List (Value × Value)} {name : String}
    {value rest : List Char} (named : keyText? k = some name) (here : chars? v = some value)
    (later : entryChars? es = some rest) : ∃ cs, entryChars? ((k, v) :: es) = some cs := by
  cases es with
  | nil => simp [entryChars?, named, here]
  | cons e es => simp [entryChars?, named, here, later]

/-- A value has just been read: it has ended, or it is a word that the next character may end. -/
inductive State.Holds : State → Tree → List Frame → Prop
  | ended (tree : Tree) (around : List Frame) : Holds (.afterValue tree around) tree around
  | word (reversed : List Char) (around : List Frame) :
      Holds (.inWord reversed around) (.word reversed.reverse) around

theorem State.Holds.step {s : State} {t : Tree} {around : List Frame} (holds : s.Holds t around)
    {c : Char} (solid : isBlank c = false) (mark : isWordChar c = false) :
    s.step c = State.leave t around c := by
  cases holds <;> simp [State.step, solid, mark]

theorem State.Holds.result? {s : State} {t : Tree} (holds : s.Holds t []) : s.result? = some t := by
  cases holds <;> rfl

/-- A word that is written is what has been read after it. -/
theorem IsWord.run {cs : List Char} (word : IsWord cs) (around : List Frame) :
    ∃ s, State.run (.beforeValue around) cs = some s ∧ s.Holds (.word cs) around := by
  refine ⟨_, run_word word around, ?_⟩
  have holds := State.Holds.word cs.reverse around
  rwa [List.reverse_reverse] at holds

theorem run_textValue (cs : List Char) (around : List Frame) :
    ∃ s, State.run (.beforeValue around) (stringChars cs) = some s ∧
      s.Holds (.text (String.ofList cs)) around :=
  ⟨_, run_stringChars cs .value around, .ended _ _⟩

theorem run_memberName (name : List Char) (members : List (String × Tree)) (around : List Frame)
    (cs : List Char) :
    State.run (.beforeName members around) (stringChars name ++ ':' :: ' ' :: cs) =
      State.run (.beforeValue (.object members (String.ofList name) :: around)) cs := by
  have named : State.run (.beforeName members around) (stringChars name) =
      some (.afterName members (String.ofList name) around) :=
    run_stringChars name (.name members) around
  rw [State.run_append_of named]
  rfl

/-! Items and entries may follow others, so they are read with what is done of their array or object;
only an empty one has to begin with nothing done, since its bracket closes it at once. -/

mutual

/-- A value that is written is what has been read after it. -/
theorem run_chars : (v : Value) → (cs : List Char) → (written : chars? v = some cs) →
    (around : List Frame) →
    ∃ s, State.run (.beforeValue around) cs = some s ∧ s.Holds (tree v) around
  | .null, cs, written, around => by
    cases written
    exact isWord_null.run around
  | .bool b, cs, written, around => by
    cases written
    exact (isWord_bool b).run around
  | .int n, cs, written, around => by
    cases written
    exact (isWord_int n).run around
  | .real x, cs, written, around => by
    cases written
    exact (isWord_real x).run around
  | .text s, cs, written, around => by
    cases written
    simpa only [tree, String.ofList_toList] using run_textValue s.toList around
  | .bytes bs, cs, written, around => by
    cases written
    simpa only [tree, String.ofList_toList] using run_textValue (Text.quotedBytes bs).toList around
  | .list items, cs, written, around => by
    obtain ⟨body, inside, rfl⟩ := Option.map_eq_some_iff.mp written
    exact ⟨_, run_items items body inside [] (fun _ => rfl) around, .ended _ _⟩
  | .tuple items, cs, written, around => by
    obtain ⟨body, inside, rfl⟩ := Option.map_eq_some_iff.mp written
    exact ⟨_, run_items items body inside [] (fun _ => rfl) around, .ended _ _⟩
  | .map entries, cs, written, around => by
    obtain ⟨body, inside, rfl⟩ := Option.map_eq_some_iff.mp written
    exact ⟨_, run_entries entries body inside [] (fun _ => rfl) around, .ended _ _⟩

/-- Items are added to the array that they are written in, which ends after the last one. -/
theorem run_items : (vs : List Value) → (cs : List Char) → (written : itemChars? vs = some cs) →
    (done : List Tree) → (started : vs = [] → done = []) → (around : List Frame) →
    State.run (.beforeValue (.array done :: around)) (cs ++ [']']) =
      some (.afterValue (.array (done.reverse ++ itemTrees vs)) around)
  | [], cs, written, done, started, around => by
    cases written
    rw [started rfl]
    rfl
  | [v], cs, written, done, _, around => by
    obtain ⟨s, reached, holds⟩ := run_chars v cs written (.array done :: around)
    rw [State.run_append_of reached, State.run_cons, holds.step (by decide) (by decide)]
    simp [State.leave, itemTrees]
  | v :: w :: vs, cs, written, done, _, around => by
    obtain ⟨first, rest, here, later, rfl⟩ := itemChars?_of_more written
    obtain ⟨s, reached, holds⟩ := run_chars v first here (.array done :: around)
    have following := run_items (w :: vs) rest later (tree v :: done) (by simp) around
    rw [List.append_assoc, State.run_append_of reached, List.cons_append, State.run_cons,
      holds.step (by decide) (by decide)]
    exact following.trans (by simp [itemTrees])

/-- Entries are added to the object that they are written in, which ends after the last one. -/
theorem run_entries : (es : List (Value × Value)) → (cs : List Char) →
    (written : entryChars? es = some cs) → (done : List (String × Tree)) →
    (started : es = [] → done = []) → (around : List Frame) →
    State.run (.beforeName done around) (cs ++ ['\x7d']) =
      some (.afterValue (.object (done.reverse ++ memberTrees es)) around)
  | [], cs, written, done, started, around => by
    cases written
    rw [started rfl]
    rfl
  | [(k, v)], cs, written, done, _, around => by
    obtain ⟨name, value, named, here, rfl⟩ := entryChars?_of_last written
    obtain ⟨s, reached, holds⟩ := run_chars v value here (.object done name :: around)
    rw [List.append_assoc, List.cons_append, List.cons_append, run_memberName, String.ofList_toList,
      State.run_append_of reached, State.run_cons, holds.step (by decide) (by decide)]
    simp [State.leave, memberTrees, named]
  | (k, v) :: e :: es, cs, written, done, _, around => by
    obtain ⟨name, value, rest, named, here, later, rfl⟩ := entryChars?_of_more written
    obtain ⟨s, reached, holds⟩ := run_chars v value here (.object done name :: around)
    have following := run_entries (e :: es) rest later ((name, tree v) :: done) (by simp) around
    rw [List.append_assoc, List.append_assoc, List.cons_append, List.cons_append, run_memberName,
      String.ofList_toList, State.run_append_of reached, List.cons_append, State.run_cons,
      holds.step (by decide) (by decide)]
    exact following.trans (by simp [memberTrees, named])

end

/-- What is written for a value reads back as what the value says. -/
theorem read?_write {v : Value} {text : String} (written : write? v = some text) :
    read? text = some (tree v) := by
  obtain ⟨cs, chars, rfl⟩ := Option.map_eq_some_iff.mp written
  obtain ⟨s, reached, holds⟩ := run_chars v cs chars []
  rw [read?, String.toList_ofList, reached, Option.bind_some, holds.result?]

/-! ## One line -/

theorem printable_of_isWordChar {c : Char} (word : isWordChar c = true) : 0x20 ≤ c.toNat := by
  rcases Nat.lt_or_ge c.toNat 0x20 with control | visible
  · -- There are few control characters, and none of them is in a word.
    have all : ∀ n < 0x20, isWordChar (Char.ofNat n) = false := by decide
    have refused := all c.toNat control
    rw [Char.ofNat_toNat] at refused
    exact Bool.noConfusion (word.symm.trans refused)
  · exact visible

theorem printable_hexText (width n : Nat) : ∀ c ∈ Text.hexText width n, 0x20 ≤ c.toNat := by
  have digit : ∀ n < 16, 0x20 ≤ (Text.hexDigit n).toNat := by decide
  induction width generalizing n with
  | zero => simp [Text.hexText]
  | succ width ih =>
    rw [Text.hexText, List.forall_mem_append, List.forall_mem_singleton]
    exact ⟨ih (n / 16), digit (n % 16) (Nat.mod_lt n (by decide))⟩

theorem Written.printable {c : Char} {cs : List Char} (written : Written c cs) :
    ∀ d ∈ cs, 0x20 ≤ d.toNat := by
  cases written with
  | letter visible other meaning => simpa using visible
  | unit control =>
    simp only [List.forall_mem_cons]
    exact ⟨by decide, by decide, printable_hexText 4 c.toNat⟩
  | itself visible quote backslash => simpa using visible

theorem printable_between {first last : Char} {cs : List Char} (inside : ∀ c ∈ cs, 0x20 ≤ c.toNat)
    (before : 0x20 ≤ first.toNat) (after : 0x20 ≤ last.toNat) :
    ∀ c ∈ first :: cs ++ [last], 0x20 ≤ c.toNat := by
  rw [List.cons_append, List.forall_mem_cons, List.forall_mem_append, List.forall_mem_singleton]
  exact ⟨before, inside, after⟩

theorem printable_stringChars (cs : List Char) : ∀ c ∈ stringChars cs, 0x20 ≤ c.toNat := by
  refine printable_between (fun c member => ?_) (by decide) (by decide)
  obtain ⟨d, -, among⟩ := List.mem_flatMap.mp member
  exact (written_escapeChar d).printable c among

theorem IsWord.printable {cs : List Char} (word : IsWord cs) : ∀ c ∈ cs, 0x20 ≤ c.toNat :=
  fun c member => printable_of_isWordChar (word.chars c member)

mutual

/-- No control character is written for a value. -/
theorem printable_chars : (v : Value) → (cs : List Char) → (written : chars? v = some cs) →
    ∀ c ∈ cs, 0x20 ≤ c.toNat
  | .null, cs, written => by
    cases written
    exact isWord_null.printable
  | .bool b, cs, written => by
    cases written
    exact (isWord_bool b).printable
  | .int n, cs, written => by
    cases written
    exact (isWord_int n).printable
  | .real x, cs, written => by
    cases written
    exact (isWord_real x).printable
  | .text s, cs, written => by
    cases written
    exact printable_stringChars s.toList
  | .bytes bs, cs, written => by
    cases written
    exact printable_stringChars (Text.quotedBytes bs).toList
  | .list items, cs, written => by
    obtain ⟨body, inside, rfl⟩ := Option.map_eq_some_iff.mp written
    exact printable_between (printable_items items body inside) (by decide) (by decide)
  | .tuple items, cs, written => by
    obtain ⟨body, inside, rfl⟩ := Option.map_eq_some_iff.mp written
    exact printable_between (printable_items items body inside) (by decide) (by decide)
  | .map entries, cs, written => by
    obtain ⟨body, inside, rfl⟩ := Option.map_eq_some_iff.mp written
    exact printable_between (printable_entries entries body inside) (by decide) (by decide)

theorem printable_items : (vs : List Value) → (cs : List Char) →
    (written : itemChars? vs = some cs) → ∀ c ∈ cs, 0x20 ≤ c.toNat
  | [], cs, written => by
    cases written
    exact List.forall_mem_nil _
  | [v], cs, written => printable_chars v cs written
  | v :: w :: vs, cs, written => by
    obtain ⟨first, rest, here, later, rfl⟩ := itemChars?_of_more written
    simp only [List.forall_mem_append, List.forall_mem_cons]
    exact ⟨printable_chars v first here, by decide, by decide, printable_items (w :: vs) rest later⟩

theorem printable_entries : (es : List (Value × Value)) → (cs : List Char) →
    (written : entryChars? es = some cs) → ∀ c ∈ cs, 0x20 ≤ c.toNat
  | [], cs, written => by
    cases written
    exact List.forall_mem_nil _
  | [(k, v)], cs, written => by
    obtain ⟨name, value, named, here, rfl⟩ := entryChars?_of_last written
    simp only [List.forall_mem_append, List.forall_mem_cons]
    exact ⟨printable_stringChars name.toList, by decide, by decide, printable_chars v value here⟩
  | (k, v) :: e :: es, cs, written => by
    obtain ⟨name, value, rest, named, here, later, rfl⟩ := entryChars?_of_more written
    simp only [List.forall_mem_append, List.forall_mem_cons]
    exact ⟨⟨printable_stringChars name.toList, by decide, by decide,
      printable_chars v value here⟩, by decide, by decide, printable_entries (e :: es) rest later⟩

end

theorem printable_write {v : Value} {text : String} (written : write? v = some text) :
    ∀ c ∈ text.toList, 0x20 ≤ c.toNat := by
  obtain ⟨cs, chars, rfl⟩ := Option.map_eq_some_iff.mp written
  rw [String.toList_ofList]
  exact printable_chars v cs chars

end AccessGroups.Json
