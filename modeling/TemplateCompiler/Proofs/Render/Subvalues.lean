import TemplateCompiler.Render.Emission
import TemplateCompiler.Render.Value
/-!
# Values inside values

`Value.all` lists a value and the values in it in the order in which they are written. What a value mentions is read
off that list: the helpers that it calls, the names of declarations that it refers to, and the names that it keeps
listeners under. A literal mentions nothing.
-/

namespace TemplateCompiler.Render

/-! ## Helpers by their names -/

/-- The helper that a local name stands for. -/
def Helper.named? (name : String) : Option Helper :=
  Helper.all.find? (·.localName == name)

theorem Helper.named?_localName (helper : Helper) : Helper.named? helper.localName = some helper := by
  cases helper <;> decide

theorem Helper.localName_of_named? {name : String} {helper : Helper} (h : Helper.named? name = some helper) :
    helper.localName = name := by
  simpa using List.find?_some h

theorem Helper.localName_injective {h h' : Helper} (heq : h.localName = h'.localName) : h = h' :=
  Option.some.inj (by rw [← Helper.named?_localName h, heq, Helper.named?_localName])

/-- The local names of helpers start with the same letter. -/
theorem Helper.head?_localName (helper : Helper) : helper.localName.toList.head? = some 'a' := by
  cases helper <;> decide

namespace Value

/-! ## All values of a value -/

mutual

/-- A value and all values in it, each where its written form starts: before the values in it, and those from the left
to the right. -/
def all : Value → List Value
  | .array items => .array items :: allOf items
  | .object entries => .object entries :: allUnder entries
  | .call callee arguments => .call callee arguments :: allOf arguments
  | .function parameters body => .function parameters body :: body.all
  | .arrow body => .arrow body :: body.all
  | .conditional test consequent alternate =>
    .conditional test consequent alternate :: (test.all ++ consequent.all ++ alternate.all)
  | .concat parts => .concat parts :: allOf parts
  | .memo name value => .memo name value :: value.all
  | .string text => [.string text]
  | .number n => [.number n]
  | .bool value => [.bool value]
  | .undefined => [.undefined]
  | .raw source => [.raw source]
  | .constant name => [.constant name]

/-- The values of a list, each with all values in it. -/
def allOf : List Value → List Value
  | [] => []
  | v :: vs => v.all ++ allOf vs

/-- The values of an object, each with all values in it. -/
def allUnder : List (String × Value) → List Value
  | [] => []
  | (_, v) :: rest => v.all ++ allUnder rest

end

theorem allUnder_append (xs ys : List (String × Value)) : allUnder (xs ++ ys) = allUnder xs ++ allUnder ys := by
  induction xs with
  | nil => rfl
  | cons x xs ih => simp [allUnder, ih]

theorem mem_allOf {w : Value} {vs : List Value} : w ∈ allOf vs ↔ ∃ v ∈ vs, w ∈ v.all := by
  induction vs with
  | nil => simp [allOf]
  | cons v vs ih => simp [allOf, ih]

theorem mem_allUnder {w : Value} {entries : List (String × Value)} :
    w ∈ allUnder entries ↔ ∃ entry ∈ entries, w ∈ entry.2.all := by
  induction entries with
  | nil => simp [allUnder]
  | cons entry rest ih => simp [allUnder, ih]

theorem forall_mem_allOf {P : Value → Prop} {vs : List Value} :
    (∀ w ∈ allOf vs, P w) ↔ ∀ v ∈ vs, ∀ w ∈ v.all, P w := by
  simp only [mem_allOf]
  exact ⟨fun h v hv w hw => h w ⟨v, hv, hw⟩, fun h w ⟨v, hv, hw⟩ => h v hv w hw⟩

theorem forall_mem_allUnder {P : Value → Prop} {entries : List (String × Value)} :
    (∀ w ∈ allUnder entries, P w) ↔ ∀ entry ∈ entries, ∀ w ∈ entry.2.all, P w := by
  simp only [mem_allUnder]
  exact ⟨fun h entry hentry w hw => h w ⟨entry, hentry, hw⟩, fun h w ⟨entry, hentry, hw⟩ => h entry hentry w hw⟩

theorem self_mem_all (v : Value) : v ∈ v.all := by
  cases v <;> simp [all]

mutual

/-- What is in a value that is in another one is in that one. -/
theorem all_subset : ∀ v : Value, ∀ w ∈ v.all, w.all ⊆ v.all
  | .array items => fun w hw => by
    rcases List.mem_cons.1 hw with rfl | hw
    · exact List.Subset.refl _
    · exact List.subset_cons_of_subset _ (allOf_subset items w hw)
  | .object entries => fun w hw => by
    rcases List.mem_cons.1 hw with rfl | hw
    · exact List.Subset.refl _
    · exact List.subset_cons_of_subset _ (allUnder_subset entries w hw)
  | .call _ arguments => fun w hw => by
    rcases List.mem_cons.1 hw with rfl | hw
    · exact List.Subset.refl _
    · exact List.subset_cons_of_subset _ (allOf_subset arguments w hw)
  | .function _ body => fun w hw => by
    rcases List.mem_cons.1 hw with rfl | hw
    · exact List.Subset.refl _
    · exact List.subset_cons_of_subset _ (all_subset body w hw)
  | .arrow body => fun w hw => by
    rcases List.mem_cons.1 hw with rfl | hw
    · exact List.Subset.refl _
    · exact List.subset_cons_of_subset _ (all_subset body w hw)
  | .conditional test consequent alternate => fun w hw x hx => by
    rcases List.mem_cons.1 hw with rfl | hw
    · exact hx
    · rw [all, List.mem_cons, List.mem_append, List.mem_append]
      rcases List.mem_append.1 hw with hw | hw
      · rcases List.mem_append.1 hw with hw | hw
        · exact .inr (.inl (.inl (all_subset test w hw hx)))
        · exact .inr (.inl (.inr (all_subset consequent w hw hx)))
      · exact .inr (.inr (all_subset alternate w hw hx))
  | .concat parts => fun w hw => by
    rcases List.mem_cons.1 hw with rfl | hw
    · exact List.Subset.refl _
    · exact List.subset_cons_of_subset _ (allOf_subset parts w hw)
  | .memo _ value => fun w hw => by
    rcases List.mem_cons.1 hw with rfl | hw
    · exact List.Subset.refl _
    · exact List.subset_cons_of_subset _ (all_subset value w hw)
  | .string _ => fun w hw => by rw [List.mem_singleton.1 hw]; exact List.Subset.refl _
  | .number _ => fun w hw => by rw [List.mem_singleton.1 hw]; exact List.Subset.refl _
  | .bool _ => fun w hw => by rw [List.mem_singleton.1 hw]; exact List.Subset.refl _
  | .undefined => fun w hw => by rw [List.mem_singleton.1 hw]; exact List.Subset.refl _
  | .raw _ => fun w hw => by rw [List.mem_singleton.1 hw]; exact List.Subset.refl _
  | .constant _ => fun w hw => by rw [List.mem_singleton.1 hw]; exact List.Subset.refl _

theorem allOf_subset : ∀ vs : List Value, ∀ w ∈ allOf vs, w.all ⊆ allOf vs
  | [] => fun w hw => by cases hw
  | v :: vs => fun w hw => by
    rcases List.mem_append.1 hw with hw | hw
    · exact List.subset_append_of_subset_left _ (all_subset v w hw)
    · exact List.subset_append_of_subset_right _ (allOf_subset vs w hw)

theorem allUnder_subset : ∀ entries : List (String × Value), ∀ w ∈ allUnder entries, w.all ⊆ allUnder entries
  | [] => fun w hw => by cases hw
  | (_, v) :: rest => fun w hw => by
    rcases List.mem_append.1 hw with hw | hw
    · exact List.subset_append_of_subset_left _ (all_subset v w hw)
    · exact List.subset_append_of_subset_right _ (allUnder_subset rest w hw)

end

/-! ## Mentions -/

/-- The helper that a value is a call of. -/
def helper? : Value → Option Helper
  | .call callee _ => Helper.named? callee
  | _ => none

/-- The name of a declaration that a value is: a constant, or what it calls if that is no helper. -/
def reference? : Value → Option String
  | .constant name => some name
  | .call callee _ => if (Helper.named? callee).isSome then none else some callee
  | _ => none

/-- The name that a value keeps another one under. -/
def memoName? : Value → Option String
  | .memo name _ => some name
  | _ => none

end Value

/-- What is mentioned one after the other. -/
structure Trace where
  helpers : List Helper := []
  names : List String := []
  memos : List String := []

namespace Trace

instance : Append Trace :=
  ⟨fun s t => ⟨s.helpers ++ t.helpers, s.names ++ t.names, s.memos ++ t.memos⟩⟩

theorem append_def (s t : Trace) : s ++ t = ⟨s.helpers ++ t.helpers, s.names ++ t.names, s.memos ++ t.memos⟩ :=
  rfl

theorem append_assoc (s t u : Trace) : s ++ t ++ u = s ++ (t ++ u) := by
  simp [append_def]

@[simp] theorem append_empty (t : Trace) : t ++ {} = t := by
  simp [append_def]

@[simp] theorem empty_append (t : Trace) : {} ++ t = t := by
  simp [append_def]

/-- What is mentioned by the one after the other. -/
def concat (traces : List Trace) : Trace :=
  traces.foldr (· ++ ·) {}

@[simp] theorem concat_nil : concat [] = {} := rfl

@[simp] theorem concat_cons (t : Trace) (ts : List Trace) : concat (t :: ts) = t ++ concat ts := rfl

/-- What values mention, the values in them aside. -/
def ofList (vs : List Value) : Trace :=
  ⟨vs.filterMap Value.helper?, vs.filterMap Value.reference?, vs.filterMap Value.memoName?⟩

theorem ofList_append (vs ws : List Value) : ofList (vs ++ ws) = ofList vs ++ ofList ws := by
  simp [ofList, append_def]

/-- What a value mentions itself. -/
def own (v : Value) : Trace :=
  ⟨v.helper?.toList, v.reference?.toList, v.memoName?.toList⟩

theorem ofList_cons (v : Value) (vs : List Value) : ofList (v :: vs) = own v ++ ofList vs := by
  have hcons {α : Type} (f : Value → Option α) : (v :: vs).filterMap f = (f v).toList ++ vs.filterMap f := by
    cases h : f v <;> simp [h]
  simp [ofList, own, append_def, hcons]

end Trace

namespace Value

/-- What a value mentions. -/
def trace (v : Value) : Trace :=
  .ofList v.all

/-- What the values of a list mention. -/
def traceOf (vs : List Value) : Trace :=
  .ofList (allOf vs)

/-- What the values of an object mention. -/
def traceUnder (entries : List (String × Value)) : Trace :=
  .ofList (allUnder entries)

@[simp] theorem traceOf_nil : traceOf [] = {} := rfl

@[simp] theorem traceOf_cons (v : Value) (vs : List Value) : traceOf (v :: vs) = v.trace ++ traceOf vs := by
  simp [traceOf, trace, allOf, Trace.ofList_append]

@[simp] theorem traceUnder_nil : traceUnder [] = {} := rfl

@[simp] theorem traceUnder_cons (entry : String × Value) (rest : List (String × Value)) :
    traceUnder (entry :: rest) = entry.2.trace ++ traceUnder rest := by
  simp [traceUnder, trace, allUnder, Trace.ofList_append]

theorem traceOf_eq_concat (vs : List Value) : traceOf vs = .concat (vs.map trace) := by
  induction vs with
  | nil => rfl
  | cons v vs ih => simp [ih]

theorem traceUnder_eq_concat (entries : List (String × Value)) :
    traceUnder entries = .concat (entries.map fun entry => entry.2.trace) := by
  induction entries with
  | nil => rfl
  | cons entry rest ih => simp [ih]

theorem traceUnder_append (xs ys : List (String × Value)) : traceUnder (xs ++ ys) = traceUnder xs ++ traceUnder ys := by
  simp [traceUnder, allUnder_append, Trace.ofList_append]

@[simp] theorem trace_string (text : String) : (Value.string text).trace = {} := rfl

@[simp] theorem trace_number (n : Nat) : (Value.number n).trace = {} := rfl

@[simp] theorem trace_bool (value : Bool) : (Value.bool value).trace = {} := rfl

@[simp] theorem trace_undefined : Value.undefined.trace = {} := rfl

@[simp] theorem trace_raw (source : String) : (Value.raw source).trace = {} := rfl

@[simp] theorem trace_constant (name : String) : (Value.constant name).trace = { names := [name] } := rfl

@[simp] theorem trace_array (items : List Value) : (Value.array items).trace = traceOf items := by
  rw [trace, all, Trace.ofList_cons]
  rfl

@[simp] theorem trace_object (entries : List (String × Value)) : (Value.object entries).trace = traceUnder entries := by
  rw [trace, all, Trace.ofList_cons]
  rfl

@[simp] theorem trace_call (helper : Helper) (arguments : List Value) :
    (Value.call helper.localName arguments).trace = { helpers := [helper] } ++ traceOf arguments := by
  have hown : Trace.own (.call helper.localName arguments) = { helpers := [helper] } := by
    simp [Trace.own, helper?, reference?, memoName?, Helper.named?_localName]
  rw [trace, all, Trace.ofList_cons, hown, traceOf]

theorem trace_call_other {name : String} (h : Helper.named? name = none) (arguments : List Value) :
    (Value.call name arguments).trace = { names := [name] } ++ traceOf arguments := by
  have hown : Trace.own (.call name arguments) = { names := [name] } := by
    simp [Trace.own, helper?, reference?, memoName?, h]
  rw [trace, all, Trace.ofList_cons, hown, traceOf]

@[simp] theorem trace_function (parameters : List String) (body : Value) :
    (Value.function parameters body).trace = body.trace := by
  rw [trace, all, Trace.ofList_cons]
  rfl

@[simp] theorem trace_arrow (body : Value) : (Value.arrow body).trace = body.trace := by
  rw [trace, all, Trace.ofList_cons]
  rfl

@[simp] theorem trace_conditional (test consequent alternate : Value) :
    (Value.conditional test consequent alternate).trace = test.trace ++ consequent.trace ++ alternate.trace := by
  rw [trace, all, Trace.ofList_cons, Trace.ofList_append, Trace.ofList_append]
  rfl

@[simp] theorem trace_concat (parts : List Value) : (Value.concat parts).trace = traceOf parts := by
  rw [trace, all, Trace.ofList_cons]
  rfl

@[simp] theorem trace_memo (name : String) (value : Value) :
    (Value.memo name value).trace = { memos := [name] } ++ value.trace := by
  rw [trace, all, Trace.ofList_cons]
  rfl

mutual

/-- A literal mentions nothing. -/
theorem trace_of_isLiteral : ∀ v : Value, v.isLiteral = true → v.trace = {}
  | .string _ => fun _ => rfl
  | .number _ => fun _ => rfl
  | .bool _ => fun _ => rfl
  | .array items => fun h => by
    rw [trace_array, traceOf_of_areLiteral items (by simpa [isLiteral] using h)]
  | .object entries => fun h => by
    rw [trace_object, traceUnder_of_haveLiterals entries (by simpa [isLiteral] using h)]
  | .undefined => nofun
  | .raw _ => nofun
  | .constant _ => nofun
  | .call _ _ => nofun
  | .function _ _ => nofun
  | .arrow _ => nofun
  | .conditional _ _ _ => nofun
  | .concat _ => nofun
  | .memo _ _ => nofun

theorem traceOf_of_areLiteral : ∀ vs : List Value, areLiteral vs = true → traceOf vs = {}
  | [] => fun _ => rfl
  | v :: vs => fun h => by
    obtain ⟨hv, hvs⟩ := Bool.and_eq_true_iff.1 h
    rw [traceOf_cons, trace_of_isLiteral v hv, traceOf_of_areLiteral vs hvs, Trace.append_empty]

theorem traceUnder_of_haveLiterals : ∀ entries : List (String × Value), haveLiterals entries = true →
    traceUnder entries = {}
  | [] => fun _ => rfl
  | (_, v) :: rest => fun h => by
    obtain ⟨hv, hrest⟩ := Bool.and_eq_true_iff.1 h
    rw [traceUnder_cons, trace_of_isLiteral v hv, traceUnder_of_haveLiterals rest hrest, Trace.append_empty]

end

end Value

end TemplateCompiler.Render
