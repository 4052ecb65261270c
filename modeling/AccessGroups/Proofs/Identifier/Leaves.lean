import AccessGroups.Identifier.ResourceName
import AccessGroups.Proofs.Identifier.Normalization

/-!
Names of references. Between two texts that something other than words keeps apart, the fragment of the
whole is the fragment of the one and then that of the other. The items of an argument are kept apart by
commas, so its fragment is made of those of its leaves, however they are nested.
-/

set_option autoImplicit false

namespace AccessGroups

namespace Identifier

theorem isNameChar_of_not_isWordChar {c : Char} (other : isWordChar c = false) :
    isNameChar c = false := by
  rw [Bool.eq_false_iff] at other ⊢
  exact fun name => other (isWordChar_of_isNameChar name)

/-- What holds no character of words leaves nothing in a fragment, and no word goes on after it. -/
theorem fragmentChars_separated (before : List Char) {gap : List Char} (some : gap ≠ [])
    (separates : ∀ c ∈ gap, isWordChar c = false) (after : List Char) :
    fragmentChars (before ++ gap ++ after) = fragmentChars before ++ fragmentChars after := by
  have dropped : ∀ c ∈ gap, isNameChar c = false :=
    fun c member => isNameChar_of_not_isWordChar (separates c member)
  have ended : endsInWord (endsInWord false before) gap = false := by
    rw [endsInWord, List.getLast?_eq_some_getLast some]
    exact separates _ (List.getLast_mem some)
  rw [fragmentChars, List.append_assoc, titledFrom_append, titledFrom_append, ended,
    List.filter_append, List.filter_append, filter_titledFrom_of_dropped _ dropped, List.nil_append]
  rfl

theorem fragment_separated (s t : String) {gap : String} (some : gap ≠ "")
    (separates : ∀ c ∈ gap.toList, isWordChar c = false) :
    fragment (s ++ gap ++ t) = fragment s ++ fragment t := by
  have characters : gap.toList ≠ [] := fun none => some (String.toList_eq_nil_iff.mp none)
  rw [← String.toList_inj, fragment, String.toList_ofList, String.toList_append, String.toList_append,
    fragmentChars_separated s.toList characters separates t.toList, String.toList_append, fragment,
    fragment, String.toList_ofList, String.toList_ofList]

theorem not_isWordChar_of_comma : ∀ c ∈ [','], isWordChar c = false :=
  List.forall_mem_singleton.mpr rfl

/-- The fragment of texts with commas between them is made of the fragments of the texts. -/
theorem fragment_commaJoined (texts : List String) :
    fragment (",".intercalate texts) = String.join (texts.map fragment) := by
  have comma : ∀ c ∈ ",".toList, isWordChar c = false := not_isWordChar_of_comma
  induction texts with
  | nil => rfl
  | cons first rest ih =>
    cases rest with
    | nil => simp
    | cons second others =>
      rw [String.intercalate_cons_cons, fragment_separated first _ (by decide) comma, ih,
        List.map_cons (a := first), String.join_cons]

end Identifier

namespace Principal

open Identifier

def isSequence : Value → Bool
  | .list _ => true
  | .tuple _ => true
  | _ => false

mutual

/-- What lists and tuples hold in the end, from left to right. -/
def leaves : Value → List Value
  | .list items => leavesOfItems items
  | .tuple items => leavesOfItems items
  | v => [v]

def leavesOfItems : List Value → List Value
  | [] => []
  | v :: vs => leaves v ++ leavesOfItems vs

end

def leafText : Value → String
  | .null => ""
  | .map _ => "[object Object]"
  | .bool b => if b then "true" else "false"
  | leaf => leaf.display

def leafFragment : Value → String
  | .null => ""
  | .map _ => "ObjectObject"
  | .bool b => if b then "True" else "False"
  | leaf => fragment leaf.display

theorem fragment_leafText (leaf : Value) : fragment (leafText leaf) = leafFragment leaf := by
  cases leaf with
  | map entries =>
    have fixed : fragment "[object Object]" = "ObjectObject" := by decide
    exact fixed
  | bool b => cases b <;> decide
  | _ => rfl

/-- An item of an argument as it stands between commas. -/
def itemChars (v : Value) : List Char := if v.isNull then [] else argumentChars v

theorem argumentItems_cons (v : Value) {rest : List Value} (more : rest ≠ []) :
    argumentItems (v :: rest) = itemChars v ++ [','] ++ argumentItems rest := by
  cases rest with
  | nil => exact absurd rfl more
  | cons w others => simp [argumentItems, itemChars]

theorem itemChars_of_leaf {v : Value} (leaf : isSequence v = false) :
    leaves v = [v] ∧ String.ofList (itemChars v) = leafText v := by
  cases v with
  | list items => cases leaf
  | tuple items => cases leaf
  | null => exact ⟨rfl, rfl⟩
  | bool b => cases b <;> exact ⟨rfl, rfl⟩
  | _ => exact ⟨rfl, String.ofList_toList⟩

def leafChars (leaves : List Value) : List Char :=
  leaves.flatMap fun leaf => (leafFragment leaf).toList

theorem leafChars_append (first second : List Value) :
    leafChars (first ++ second) = leafChars first ++ leafChars second := List.flatMap_append

theorem fragmentChars_of_leaf {v : Value} (leaf : isSequence v = false) :
    fragmentChars (itemChars v) = leafChars (leaves v) := by
  obtain ⟨single, text⟩ := itemChars_of_leaf leaf
  rw [single, leafChars, List.flatMap_singleton, ← fragment_leafText, ← text, fragment,
    String.toList_ofList, String.toList_ofList]

mutual

/-- The fragment of an item is made of those of its leaves. -/
theorem fragmentChars_item : (v : Value) → fragmentChars (itemChars v) = leafChars (leaves v)
  | .list items => by
    rw [leaves, ← fragmentChars_items items]
    rfl
  | .tuple items => by
    rw [leaves, ← fragmentChars_items items]
    rfl
  | .null => fragmentChars_of_leaf rfl
  | .bool _ => fragmentChars_of_leaf rfl
  | .int _ => fragmentChars_of_leaf rfl
  | .real _ => fragmentChars_of_leaf rfl
  | .text _ => fragmentChars_of_leaf rfl
  | .bytes _ => fragmentChars_of_leaf rfl
  | .map _ => fragmentChars_of_leaf rfl

theorem fragmentChars_items : (vs : List Value) →
    fragmentChars (argumentItems vs) = leafChars (leavesOfItems vs)
  | [] => rfl
  | [v] => by
    rw [leavesOfItems, leavesOfItems, List.append_nil, ← fragmentChars_item v]
    rfl
  | v :: w :: rest => by
    rw [argumentItems_cons v (List.cons_ne_nil w rest),
      fragmentChars_separated _ (List.cons_ne_nil _ _) not_isWordChar_of_comma,
      fragmentChars_item v, fragmentChars_items (w :: rest), ← leafChars_append]
    rfl

end

/-- The fragment of a list or a tuple as an argument is made of those of its leaves. -/
theorem fragment_argument {argument : Value} (sequence : isSequence argument = true) :
    fragment (String.ofList (argumentChars argument)) =
      String.join ((leaves argument).map leafFragment) := by
  have item : itemChars argument = argumentChars argument := by
    cases argument with
    | null => cases sequence
    | _ => rfl
  rw [← String.toList_inj, fragment, String.toList_ofList, String.toList_ofList, ← item,
    fragmentChars_item, String.toList_join, List.flatMap_map]
  rfl

theorem ofValue_of_intrinsic {entries : Entries Value} {first : String × Value}
    (found : intrinsic? entries = some first) :
    ofValue (.map entries) =
      .ok (.exported first.1 (String.ofList (argumentChars first.2)) entries) := by
  simp only [ofValue, found]

/-- Fragments of texts that are kept apart by something other than words are put together as they are. So
the name of a reference to an intrinsic function of several arguments is made of the fragments of their
leaves, from left to right; and it is the same however the leaves are nested, and also if the argument is
one text of them all with commas between. -/
theorem exported_name_of_leaves :
    (∀ s gap t : String, gap ≠ "" → (∀ c ∈ gap.toList, isWordChar c = false) →
      fragment (s ++ gap ++ t) = fragment s ++ fragment t) ∧
    ∀ (entries : Entries Value) (function : String) (argument : Value),
      intrinsic? entries = some (function, argument) → isSequence argument = true →
      ∃ principal, ofValue (.map entries) = .ok principal ∧
        principal.name = String.join ((leaves argument).map leafFragment) ∧
        ∀ (others : Entries Value) (key : String) (other : Value),
          intrinsic? others = some (key, other) →
          isSequence other = true ∧ leaves other = leaves argument ∨
            other = .text (",".intercalate ((leaves argument).map leafText)) →
          ∃ second, ofValue (.map others) = .ok second ∧
            ∀ id, permissionName id second = permissionName id principal := by
  refine ⟨fun s gap t some separates => fragment_separated s t some separates, ?_⟩
  intro entries function argument found sequence
  have named := fragment_argument sequence
  refine ⟨_, ofValue_of_intrinsic found, named, ?_⟩
  intro others key other foundOther alike
  refine ⟨_, ofValue_of_intrinsic foundOther, fun id => ?_⟩
  have same : fragment (String.ofList (argumentChars other)) =
      String.join ((leaves argument).map leafFragment) := by
    rcases alike with ⟨nested, leaves⟩ | joined
    · rw [fragment_argument nested, leaves]
    · have text : String.ofList (argumentChars other) =
          ",".intercalate ((leaves argument).map leafText) := by
        rw [joined]
        exact String.ofList_toList
      rw [text, fragment_commaJoined, List.map_map]
      exact congrArg String.join (List.map_congr_left fun leaf _ => fragment_leafText leaf)
  exact congrArg (id ++ "PermitInvokeFrom" ++ ·) (same.trans named.symm)

/-- A reference whose argument nests a mapping, an empty list and a tuple of three. -/
def nestedReference : Entries Value :=
  [(.text "Fn::Join", .list [.text "", .list [.text "arn:", .object [("Ref", .text "Role")], .list []],
    .tuple [.bool true, .null, .int 7]])]

/-- A reference with the leaves of the nested one in one text. -/
def joinedReference : Entries Value :=
  [(.text "Fn::ImportValue", .text ",arn:,[object Object],true,,7")]

theorem exported_name_of_leaves_nested :
    fragment ("arn" ++ ":-" ++ "aws") = fragment "arn" ++ fragment "aws" ∧
      ∃ principal second, ofValue (.map nestedReference) = .ok principal ∧
        principal.name = "ArnObjectObjectTrue7" ∧ ofValue (.map joinedReference) = .ok second ∧
        permissionName "F" second = permissionName "F" principal := by
  obtain ⟨separated, exported⟩ := exported_name_of_leaves
  obtain ⟨principal, read, named, alike⟩ := exported nestedReference _ _ rfl rfl
  have joined : ",arn:,[object Object],true,,7" =
      ",".intercalate (["", "arn:", "[object Object]", "true", "", "7"]) := by decide
  obtain ⟨second, other, same⟩ := alike joinedReference _ _ rfl (.inr (congrArg Value.text joined))
  have signs : ∀ c ∈ ":-".toList, isWordChar c = false :=
    List.forall_mem_cons.mpr ⟨rfl, List.forall_mem_singleton.mpr rfl⟩
  refine ⟨separated "arn" ":-" "aws" (by decide) signs, principal, second, read, ?_, other,
    same "F"⟩
  rw [named]
  decide

end Principal

end AccessGroups
