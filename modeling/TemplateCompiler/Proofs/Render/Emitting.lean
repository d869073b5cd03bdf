import TemplateCompiler.Render.Emission
import TemplateCompiler.Render.Value
/-!
# Steps that succeed

`Emitting.Gives` says of a step in the generation of a render function that it succeeds wherever it is taken, and what
its result is like. A call in a value *fits* if it has as many arguments as the helper takes that it names; calls of
fragments name no helper, since the names of fragments start with a sign that no helper has.
-/

namespace TemplateCompiler.Render

/-! ## Calls -/

namespace Value

mutual
/-- Whether all calls of helpers in a value have as many arguments as the helpers take. -/
def callsFit : Value → Bool
  | .array items => callsFitIn items
  | .object entries => callsFitUnder entries
  | .call callee arguments =>
    Helper.all.all (fun h => callee != h.localName || arguments.length == h.arity) && callsFitIn arguments
  | .function _ body => body.callsFit
  | .arrow body => body.callsFit
  | .conditional test consequent alternate => test.callsFit && consequent.callsFit && alternate.callsFit
  | .concat parts => callsFitIn parts
  | .memo _ value => value.callsFit
  | _ => true

/-- Whether all calls of helpers in a list of values fit. -/
def callsFitIn : List Value → Bool
  | [] => true
  | v :: vs => v.callsFit && callsFitIn vs

/-- Whether all calls of helpers in the values of an object fit. -/
def callsFitUnder : List (String × Value) → Bool
  | [] => true
  | (_, v) :: rest => v.callsFit && callsFitUnder rest
end

theorem callsFitIn_iff {values : List Value} : callsFitIn values = true ↔ ∀ v ∈ values, v.callsFit = true := by
  induction values with
  | nil => simp [callsFitIn]
  | cons v vs ih => simp [callsFitIn, ih]

theorem callsFitUnder_iff {entries : List (String × Value)} :
    callsFitUnder entries = true ↔ ∀ entry ∈ entries, entry.2.callsFit = true := by
  induction entries with
  | nil => simp [callsFitUnder]
  | cons entry rest ih => simp [callsFitUnder, ih]

theorem callsFit_call {helper : Helper} {arguments : List Value} (harity : arguments.length = helper.arity)
    (h : ∀ v ∈ arguments, v.callsFit = true) : (Value.call helper.localName arguments).callsFit = true := by
  have hname : ∀ other : Helper, helper.localName = other.localName → helper = other := by
    cases helper <;> intro other <;> cases other <;> decide
  simp only [callsFit, Bool.and_eq_true, List.all_eq_true, callsFitIn_iff]
  refine ⟨fun other _ => ?_, h⟩
  by_cases heq : helper.localName = other.localName
  · rw [← hname other heq]
    simp [harity]
  · simp [heq]

end Value

/-! ## Names of fragments -/

/-- No fragment has the name of a helper. -/
def HoistTable.NamesApart (table : HoistTable) : Prop :=
  ∀ h ∈ table.entries, h.kind = .fragment → ∀ helper : Helper, h.name ≠ helper.localName

namespace HoistTable

theorem nextName_ne (table : HoistTable) (helper : Helper) : table.nextName .fragment ≠ helper.localName := by
  intro h
  have hhead := congrArg (fun s : String => s.toList.head?) h
  have hdollar : (table.nextName .fragment).toList.head? = some '$' := by
    simp [nextName, String.toList_append]
  simp only [hdollar] at hhead
  cases helper <;> simp [Helper.localName] at hhead

theorem NamesApart.nameFor {table : HoistTable} (hn : table.NamesApart) (content : String) (helper : Helper) :
    table.nameFor .fragment content ≠ helper.localName := by
  unfold HoistTable.nameFor
  split
  · rename_i h hfind
    have hkind := List.find?_some hfind
    simp only [Bool.and_eq_true, beq_iff_eq] at hkind
    exact hn h (List.mem_of_find?_eq_some hfind) hkind.1 helper
  · exact table.nextName_ne helper

theorem NamesApart.insert {table : HoistTable} (hn : table.NamesApart) (kind : HoistKind) (content : String) :
    (table.insert kind content).NamesApart := by
  unfold HoistTable.insert
  split
  · exact hn
  · intro h hm hk helper
    rw [entries_declare] at hm
    rcases List.mem_append.1 hm with hm | hm
    · exact hn h hm hk helper
    · rw [List.mem_singleton.1 hm] at hk ⊢
      dsimp only at hk
      subst hk
      exact table.nextName_ne helper

end HoistTable

/-! ## Steps -/

namespace Emitting

variable {α β : Type}

/-- The step succeeds, and its result is as `post` says. -/
def Gives (m : Emitting α) (post : α → Prop) : Prop :=
  ∀ e : Emission, e.hoists.NamesApart → ∃ a e', m.run e = .ok (a, e') ∧ e'.hoists.NamesApart ∧ post a

theorem Gives.pure {a : α} {post : α → Prop} (h : post a) : Gives (pure a) post :=
  fun e he => ⟨a, e, rfl, he, h⟩

theorem Gives.bind {m : Emitting α} {mid : α → Prop} {k : α → Emitting β} {post : β → Prop} (hm : Gives m mid)
    (hk : ∀ a, mid a → Gives (k a) post) : Gives (m >>= k) post := by
  intro e he
  obtain ⟨a, e', hrun, he', ha⟩ := hm e he
  obtain ⟨b, e'', hrun', he'', hb⟩ := hk a ha e' he'
  refine ⟨b, e'', ?_, he'', hb⟩
  rw [StateT.run_bind, hrun]
  exact hrun'

theorem Gives.lift {x : Except InternalError α} {a : α} (h : x = .ok a) : Gives (liftM x) (· = a) := by
  subst h
  exact fun e he => ⟨a, e, rfl, he, rfl⟩

theorem Gives.mapM {f : α → Emitting β} {post : β → Prop} {xs : List α} (h : ∀ x ∈ xs, Gives (f x) post) :
    Gives (xs.mapM f) fun ys => ∀ y ∈ ys, post y := by
  induction xs with
  | nil => exact .pure (by simp)
  | cons x xs ih =>
    rw [List.mapM_cons]
    refine .bind (h x (by simp)) fun y hy => ?_
    refine .bind (ih fun x hx => h x (by simp [hx])) fun ys hys => ?_
    exact .pure (by simpa using ⟨hy, hys⟩)

theorem gives_use (helper : Helper) : Gives (use helper) fun _ => True := by
  intro e he
  refine ⟨(), e.addHelper helper, rfl, ?_, trivial⟩
  unfold Emission.addHelper
  split <;> exact he

theorem gives_call (helper : Helper) (arguments : List Value) (harity : arguments.length = helper.arity)
    (h : ∀ v ∈ arguments, v.callsFit = true) :
    Gives (call helper arguments harity) fun v => v.callsFit = true :=
  .bind (gives_use helper) fun _ _ => .pure (Value.callsFit_call harity h)

theorem gives_hoist (kind : HoistKind) (content : String) :
    Gives (hoist kind content) fun name => kind = .fragment → ∀ helper : Helper, name ≠ helper.localName := by
  intro e he
  refine ⟨_, _, rfl, he.insert kind content, ?_⟩
  rintro rfl helper
  exact he.nameFor content helper

theorem gives_hoistLiteral (value : Value) : Gives (hoistLiteral value) fun v => v.callsFit = true :=
  .bind (gives_hoist .object value.text) fun _ _ => .pure rfl

theorem gives_memoize {value : Value} (h : value.callsFit = true) :
    Gives (memoize value) fun v => v.callsFit = true :=
  fun e he => ⟨_, _, rfl, he, by simpa [Value.callsFit] using h⟩

end Emitting

end TemplateCompiler.Render
