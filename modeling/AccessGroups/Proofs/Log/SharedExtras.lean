import AccessGroups.Log.Context
import AccessGroups.Proofs.Value.Mapping
import Mathlib.Data.List.Induction

/-!
Extras that calls share. A call writes its context into the extras that it is given, and the next call
finds it there: the context that a call hands on is the last one that it or a call before it named. It is
the call's own context unless the call names none and an earlier one did.
-/

set_option autoImplicit false

namespace AccessGroups

theorem Entries.get?_put_of_ne {β : Type} (es : Entries β) (name : String) (v : β) {key : Value}
    (other : key ≠ .text name) : get? (put es (.text name) v) key = get? es key := by
  have apart : Value.same (.text name) key = false := by
    cases key with
    | text s =>
      rw [Value.same_text, beq_eq_false_iff_ne]
      intro same
      exact other (congrArg Value.text same.symm)
    | _ => simp [Value.same]
  induction es with
  | nil => simp [get?, apart]
  | cons e rest ih =>
    obtain ⟨k, w⟩ := e
    by_cases here : k = .text name
    · simp [here, put, get?, apart]
    · simp only [put, Value.same_text_false k name here, Bool.false_eq_true, ↓reduceIte, get?, ih]

namespace Log

/-- What a value contributes to the context: itself, unless it is empty. -/
def named? (v : Value) : Option Value := if v.truthy then some v else none

/-- What the last value that is not empty contributes. -/
def lastNamed? (vs : List Value) : Option Value := (vs.filterMap named?).getLast?

theorem lastNamed?_append_singleton (vs : List Value) (v : Value) :
    lastNamed? (vs ++ [v]) = (named? v).or (lastNamed? vs) := by
  rw [lastNamed?, List.filterMap_append, List.getLast?_append]
  cases named : named? v with
  | none => simp [named, lastNamed?]
  | some own => simp [named]

theorem lastNamed?_eq_none_iff (vs : List Value) :
    lastNamed? vs = none ↔ ∀ v ∈ vs, v.truthy = false := by
  rw [lastNamed?, List.getLast?_eq_none_iff, List.filterMap_eq_nil_iff]
  simp [named?]

/-- The last of several values and one more is that one, unless it is empty and another one is not. -/
theorem lastNamed?_eq_named?_iff (vs : List Value) (v : Value) :
    lastNamed? (vs ++ [v]) = named? v ↔ v.truthy = true ∨ ∀ w ∈ vs, w.truthy = false := by
  rw [lastNamed?_append_singleton, ← lastNamed?_eq_none_iff, named?]
  cases v.truthy <;> simp

namespace Invocation

/-- The group that a call is about: the one it names, else the one its logger is bound to. -/
def about (call : Invocation) : Value := argumentOr call.arguments "group" call.group

def function (call : Invocation) : Value := argumentOr call.arguments "function" .null

end Invocation

/-- Entries with a value written under a name, unless the value is empty. -/
def written (name : String) (v : Value) (es : Entries Value) : Entries Value :=
  if v.truthy then Entries.put es (.text name) v else es

theorem bindExtra_map (name : String) (v : Value) (es : Entries Value) :
    bindExtra name v (.map es) = .ok (.map (written name v es)) := by
  unfold bindExtra written
  cases v.truthy <;> rfl

theorem get?_written_self (name : String) (v : Value) (es : Entries Value) :
    Entries.get? (written name v es) (.text name) = (named? v).or (Entries.get? es (.text name)) := by
  unfold written named?
  cases v.truthy with
  | true => simp [Entries.get?_put_text]
  | false => rfl

theorem get?_written_of_ne {name : String} {key : Value} (other : key ≠ .text name) (v : Value)
    (es : Entries Value) : Entries.get? (written name v es) key = Entries.get? es key := by
  unfold written
  cases v.truthy with
  | true => exact Entries.get?_put_of_ne es name v other
  | false => rfl

namespace Invocation

/-- Entries with the context of a call written into them. -/
def bound (call : Invocation) (es : Entries Value) : Entries Value :=
  written "function" call.function (written "group" call.about es)

theorem get?_group_bound (call : Invocation) (es : Entries Value) :
    Entries.get? (call.bound es) (.text "group") =
      (named? call.about).or (Entries.get? es (.text "group")) := by
  rw [bound, get?_written_of_ne (by simp), get?_written_self]

theorem get?_function_bound (call : Invocation) (es : Entries Value) :
    Entries.get? (call.bound es) (.text "function") =
      (named? call.function).or (Entries.get? es (.text "function")) := by
  rw [bound, get?_written_self, get?_written_of_ne (by simp)]

theorem get?_bound_of_ne (call : Invocation) (es : Entries Value) {key : Value}
    (notGroup : key ≠ .text "group") (notFunction : key ≠ .text "function") :
    Entries.get? (call.bound es) key = Entries.get? es key := by
  rw [bound, get?_written_of_ne notFunction, get?_written_of_ne notGroup]

theorem contextExtra_map (call : Invocation) {es : Entries Value}
    (extra : argumentOr call.arguments "extra" (.map []) = .map es) :
    contextExtra call.group call.arguments = .ok (.map (call.bound es)) := by
  simp only [contextExtra, extra, bindExtra_map, bind, Except.bind]
  rfl

/-- A call with the extras that are shared among its arguments. -/
def sharing (call : Invocation) (es : Entries Value) : Invocation :=
  ⟨call.group, Entries.put call.arguments (.text "extra") (.map es)⟩

theorem bound_sharing (call : Invocation) (es : Entries Value) :
    (call.sharing es).bound es = call.bound es := by
  have about : (call.sharing es).about = call.about := by
    simp [sharing, Invocation.about, argumentOr, Entries.get?_put_text]
  have function : (call.sharing es).function = call.function := by
    simp [sharing, Invocation.function, argumentOr, Entries.get?_put_text]
  rw [bound, about, function, bound]

theorem contextExtra_shared (call : Invocation) (es : Entries Value) :
    contextExtra call.group (Entries.put call.arguments (.text "extra") (.map es)) =
      .ok (.map (call.bound es)) := by
  have extra : argumentOr (call.sharing es).arguments "extra" (.map []) = .map es := by
    simp [sharing, argumentOr, Entries.get?_put_text]
  rw [← bound_sharing]
  exact contextExtra_map (call.sharing es) extra

/-- A call hands on the extras that it is given with its context written into them, and so does it leave
them. -/
theorem bindShared_map (call : Invocation) (es : Entries Value) :
    ∃ handedOn, bindShared call.group call.arguments (.map es) =
        (.ok handedOn, .map (call.bound es)) ∧
      Entries.get? handedOn (.text "extra") = some (.map (call.bound es)) := by
  have bound := contextExtra_shared call es
  simp only [bindShared, bindContext, bound, bind, Except.bind, pure, Except.pure]
  refine ⟨_, Prod.ext rfl ?_, ?_⟩
  · simp [argumentOr, Entries.get?_put_text]
  · simp [Entries.get?_put_text]

end Invocation

def boundAll (calls : List Invocation) (es : Entries Value) : Entries Value :=
  calls.foldl (fun es call => call.bound es) es

theorem boundAll_append_singleton (calls : List Invocation) (call : Invocation) (es : Entries Value) :
    boundAll (calls ++ [call]) es = call.bound (boundAll calls es) := by
  rw [boundAll, List.foldl_append]
  rfl

/-- Each call of a run finds the extras as the calls before it have left them. -/
theorem bindAll_reply (before : List Invocation) (call : Invocation) (after : List Invocation)
    (es : Entries Value) :
    ∃ handedOn, (bindAll (.map es) (before ++ call :: after)).1[before.length]? =
        some (.ok handedOn) ∧
      Entries.get? handedOn (.text "extra") = some (.map (boundAll (before ++ [call]) es)) := by
  induction before generalizing es with
  | nil =>
    obtain ⟨handedOn, step, extra⟩ := call.bindShared_map es
    refine ⟨handedOn, ?_, extra⟩
    simp [bindAll, step]
  | cons earlier rest ih =>
    obtain ⟨first, step, -⟩ := earlier.bindShared_map es
    obtain ⟨handedOn, reply, extra⟩ := ih (earlier.bound es)
    refine ⟨handedOn, ?_, extra⟩
    simpa [bindAll, step] using reply

/-- What stands under a key after calls is what the last of them to name something there has named, if
that is how each call treats the key. -/
theorem get?_boundAll {key : Value} (of : Invocation → Value)
    (each : ∀ (call : Invocation) es,
      Entries.get? (call.bound es) key = (named? (of call)).or (Entries.get? es key))
    (calls : List Invocation) (es : Entries Value) :
    Entries.get? (boundAll calls es) key =
      (lastNamed? (calls.map of)).or (Entries.get? es key) := by
  induction calls using List.reverseRecOn with
  | nil => rfl
  | append_singleton earlier call ih =>
    rw [boundAll_append_singleton, each, ih, List.map_append, List.map_singleton,
      lastNamed?_append_singleton, Option.or_assoc]

theorem get?_boundAll_of_ne {key : Value} (notGroup : key ≠ .text "group")
    (notFunction : key ≠ .text "function") (calls : List Invocation) (es : Entries Value) :
    Entries.get? (boundAll calls es) key = Entries.get? es key := by
  have nothing : lastNamed? (calls.map fun _ => Value.null) = none := by
    rw [lastNamed?_eq_none_iff]
    intro v member
    obtain ⟨_, -, rfl⟩ := List.mem_map.mp member
    rfl
  rw [get?_boundAll (fun _ => .null) fun call es => call.get?_bound_of_ne es notGroup notFunction,
    nothing, Option.none_or]

/-- Calls that are given the same extras, which name no group and no function at first. What a call hands
on has the group of the last of the calls up to it that is about one, likewise the function, and is
otherwise as at first. The group is that of the call itself exactly if it is about one or no call before
it was, and the function likewise. -/
theorem bindAll_context {es : Entries Value} (noGroup : Entries.get? es (.text "group") = none)
    (noFunction : Entries.get? es (.text "function") = none) (before : List Invocation)
    (call : Invocation) (after : List Invocation) :
    ∃ handedOn extras,
      (bindAll (.map es) (before ++ call :: after)).1[before.length]? = some (.ok handedOn) ∧
      Entries.get? handedOn (.text "extra") = some (.map extras) ∧
      Entries.get? extras (.text "group") =
        lastNamed? ((before ++ [call]).map Invocation.about) ∧
      Entries.get? extras (.text "function") =
        lastNamed? ((before ++ [call]).map Invocation.function) ∧
      (∀ key, key ≠ .text "group" → key ≠ .text "function" →
        Entries.get? extras key = Entries.get? es key) ∧
      (Entries.get? extras (.text "group") = named? call.about ↔
        call.about.truthy = true ∨ ∀ earlier ∈ before, earlier.about.truthy = false) ∧
      (Entries.get? extras (.text "function") = named? call.function ↔
        call.function.truthy = true ∨ ∀ earlier ∈ before, earlier.function.truthy = false) := by
  obtain ⟨handedOn, reply, extra⟩ := bindAll_reply before call after es
  have group := get?_boundAll Invocation.about Invocation.get?_group_bound (before ++ [call]) es
  have function :=
    get?_boundAll Invocation.function Invocation.get?_function_bound (before ++ [call]) es
  rw [noGroup, Option.or_none] at group
  rw [noFunction, Option.or_none] at function
  refine ⟨handedOn, _, reply, extra, group, function, ?_, ?_, ?_⟩
  · intro key notGroup notFunction
    exact get?_boundAll_of_ne notGroup notFunction _ es
  · rw [group, List.map_append, List.map_singleton, lastNamed?_eq_named?_iff]
    simp
  · rw [function, List.map_append, List.map_singleton, lastNamed?_eq_named?_iff]
    simp

/-- Two calls of loggers bound to groups, the second of which overrides its group by an empty one, and one
of a logger that is bound to none; only the first is about a function. -/
def sharingCalls : List Invocation :=
  [⟨.text "api", [(.text "function", .text "F")]⟩,
    ⟨.text "admin", [(.text "group", .text ""), (.text "function", .null)]⟩, ⟨.null, []⟩]

theorem bindAll_context_sharing :
    Entries.get? [(Value.text "attempt", Value.int 2)] (.text "group") = none ∧
      Entries.get? [(Value.text "attempt", Value.int 2)] (.text "function") = none ∧
      ∃ handedOn extras,
        (bindAll (.map [(.text "attempt", .int 2)]) sharingCalls).1[1]? = some (.ok handedOn) ∧
        Entries.get? handedOn (.text "extra") = some (.map extras) ∧
        Entries.get? extras (.text "group") = some (.text "api") ∧
        Entries.get? extras (.text "function") = some (.text "F") ∧
        Entries.get? extras (.text "attempt") = some (.int 2) := by
  obtain ⟨handedOn, extras, reply, extra, group, function, others, -, -⟩ :=
    @bindAll_context [(.text "attempt", .int 2)] rfl rfl
      [⟨.text "api", [(.text "function", .text "F")]⟩]
      ⟨.text "admin", [(.text "group", .text ""), (.text "function", .null)]⟩ [⟨.null, []⟩]
  exact ⟨rfl, rfl, handedOn, extras, reply, extra, group, function,
    others (.text "attempt") (by simp) (by simp)⟩

/-- A call that is about no function hands on the function of the call before it. -/
theorem bindAll_leaks_function :
    ∃ handedOn extras,
      (bindAll (.map []) [⟨.text "api", [(.text "function", .text "F")]⟩, ⟨.text "api", []⟩]).1[1]? =
        some (.ok handedOn) ∧
      Entries.get? handedOn (.text "extra") = some (.map extras) ∧
      (Invocation.mk (.text "api") []).function.truthy = false ∧
      Entries.get? extras (.text "function") = some (.text "F") :=
  ⟨_, _, rfl, rfl, rfl, rfl⟩

end Log

end AccessGroups
