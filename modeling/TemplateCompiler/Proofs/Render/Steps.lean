import TemplateCompiler.Proofs.Render.Naming
import TemplateCompiler.Proofs.Render.Subvalues
/-!
# What steps note

While a body is generated, everything that it mentions is noted. `Noted` says that an emission knows exactly what has
been mentioned so far, each thing once and in the order of the first mentions; the names of imports are mentioned
too, but stand in a table of their own. `Ends` is the rule for going through a generation step by step.
-/

namespace TemplateCompiler.Render

/-! ## Lists -/

theorem forall₂_eq_map {α β : Type} {f : α → β} {xs : List α} {ys : List β}
    (h : List.Forall₂ (fun x y => y = f x) xs ys) : ys = xs.map f := by
  induction h with
  | nil => rfl
  | cons hxy _ ih => rw [hxy, ih, List.map_cons]

theorem forall₂_mem_right {α β : Type} {r : α → β → Prop} {xs : List α} {ys : List β} (h : List.Forall₂ r xs ys)
    {y : β} (hy : y ∈ ys) : ∃ x ∈ xs, r x y := by
  induction h with
  | nil => cases hy
  | @cons x y' xs ys hxy _ ih =>
    rcases List.mem_cons.1 hy with rfl | hy
    · exact ⟨x, by simp, hxy⟩
    · obtain ⟨x, hx, hr⟩ := ih hy
      exact ⟨x, by simp [hx], hr⟩

/-! ## First mentions -/

theorem nodup_eraseDups {α : Type} [BEq α] [LawfulBEq α] (xs : List α) : xs.eraseDups.Nodup := by
  induction hn : xs.length using Nat.strongRecOn generalizing xs with
  | _ n ih =>
    cases xs with
    | nil => simp
    | cons x xs =>
      rw [List.eraseDups_cons]
      refine List.nodup_cons.2 ⟨by simp, ih _ ?_ _ rfl⟩
      subst hn
      exact Nat.lt_succ_of_le (List.length_filter_le _ xs)

theorem Emission.addHelper_hoists (e : Emission) (helper : Helper) : (e.addHelper helper).hoists = e.hoists := by
  unfold addHelper
  split <;> rfl

theorem Emission.addHelper_memos (e : Emission) (helper : Helper) : (e.addHelper helper).memos = e.memos := by
  unfold addHelper
  split <;> rfl

attribute [simp] Emission.addHelper_hoists Emission.addHelper_memos

/-- What is declared as a literal is the text of one. -/
def HoistKind.Holds : HoistKind → String → Prop
  | .object, content => ∃ v : Value, v.isLiteral = true ∧ content = v.text
  | .fragment, _ => True

/-- The emission knows what has been mentioned, and nothing else. -/
structure Noted (imports : List String) (t : Trace) (e : Emission) : Prop where
  sound : e.hoists.Sound
  contents : ∀ h ∈ e.hoists.entries, h.kind.Holds h.content
  helpers : e.helpers = t.helpers.eraseDups
  names : e.hoists.names = (t.names.filter fun name => !imports.contains name).eraseDups
  memos : (List.range e.memos).map memoName = t.memos
  /-- No declaration has the name of an import. -/
  underscore : ∀ name ∈ imports, name.toList.head? = some '_'

namespace Noted

variable {imports : List String} {t : Trace} {e : Emission}

theorem start (h : ∀ name ∈ imports, name.toList.head? = some '_') : Noted imports {} {} :=
  ⟨HoistTable.sound_empty, by simp, rfl, rfl, rfl, h⟩

theorem addHelper (h : Noted imports t e) (helper : Helper) :
    Noted imports (t ++ { helpers := [helper] }) (e.addHelper helper) := by
  have hhelpers : (e.addHelper helper).helpers = (t.helpers ++ [helper]).eraseDups := by
    rw [eraseDups_concat, ← h.helpers]
    have hmem : helper ∈ e.helpers ↔ helper ∈ t.helpers := by rw [h.helpers, List.mem_eraseDups]
    unfold Emission.addHelper
    by_cases hm : helper ∈ t.helpers <;> simp [hm, hmem]
  exact ⟨by simpa using h.sound, by simpa using h.contents, hhelpers, by simpa [Trace.append_def] using h.names,
    by simpa [Trace.append_def] using h.memos, h.underscore⟩

theorem addHelper_again (h : Noted imports t e) {helper : Helper} (hm : helper ∈ t.helpers) :
    e.addHelper helper = e := by
  unfold Emission.addHelper
  rw [if_pos (by simpa [h.helpers] using hm)]

theorem hoist (h : Noted imports t e) {kind : HoistKind} {content : String} (hcontent : kind.Holds content) :
    Noted imports (t ++ { names := [e.hoists.nameFor kind content] })
      { e with hoists := e.hoists.insert kind content } := by
  have hsound := h.sound.insert kind content
  have hfresh : e.hoists.nameFor kind content ∉ imports := by
    intro himport
    obtain ⟨kind', hhead⟩ := hsound.head?_name (List.mem_map_of_mem (e.hoists.mem_insert kind content))
    rw [h.underscore _ himport] at hhead
    cases kind' <;> cases hhead
  have hcontents : ∀ h ∈ (e.hoists.insert kind content).entries, h.kind.Holds h.content := by
    cases hfind : e.hoists.find? kind content with
    | some found =>
      rw [HoistTable.insert_eq_self hfind]
      exact h.contents
    | none =>
      rw [HoistTable.insert_eq_declare hfind, HoistTable.entries_declare]
      exact List.forall_mem_append.2 ⟨h.contents, List.forall_mem_singleton.2 hcontent⟩
  refine ⟨hsound, hcontents, by simpa [Trace.append_def] using h.helpers, ?_,
    by simpa [Trace.append_def] using h.memos, h.underscore⟩
  have hfilter : ([e.hoists.nameFor kind content].filter fun name => !imports.contains name) =
      [e.hoists.nameFor kind content] := by simpa using hfresh
  rw [show (t ++ { names := [e.hoists.nameFor kind content] } : Trace).names =
    t.names ++ [e.hoists.nameFor kind content] from rfl, List.filter_append, hfilter, eraseDups_concat, ← h.names]
  have hmem : e.hoists.nameFor kind content ∈ e.hoists.names ↔
      e.hoists.nameFor kind content ∈ t.names.filter fun name => !imports.contains name := by
    rw [h.names, List.mem_eraseDups]
  simp only [h.sound.names_insert kind content, hmem]

/-- The name of an import is mentioned, and no declaration is made. -/
theorem imported (h : Noted imports t e) {name : String} (hm : name ∈ imports) :
    Noted imports (t ++ { names := [name] }) e := by
  refine ⟨h.sound, h.contents, by simpa [Trace.append_def] using h.helpers, ?_,
    by simpa [Trace.append_def] using h.memos, h.underscore⟩
  rw [h.names]
  simp [Trace.append_def, hm]

theorem memoize (h : Noted imports t e) :
    Noted imports (t ++ { memos := [memoName e.memos] }) { e with memos := e.memos + 1 } := by
  refine ⟨h.sound, h.contents, by simpa [Trace.append_def] using h.helpers,
    by simpa [Trace.append_def] using h.names, ?_, h.underscore⟩
  simp [List.range_succ, h.memos, Trace.append_def]

end Noted

/-! ## Going through a generation -/

/-- A content is declared under a name. -/
def HoistTable.Declares (table : HoistTable) (kind : HoistKind) (content name : String) : Prop :=
  ⟨kind, content, name⟩ ∈ table.entries

/-- No fragment has the name of a helper. -/
theorem HoistTable.Sound.named?_fragment {table : HoistTable} (hs : table.Sound) {content name : String}
    (h : table.Declares .fragment content name) : Helper.named? name = none := by
  obtain ⟨n, -, hname⟩ := hs.numbered _ h
  cases hnamed : Helper.named? name with
  | none => rfl
  | some helper =>
    have hhead := helper.head?_localName
    rw [Helper.localName_of_named? hnamed, show name = HoistKind.fragment.nameAt n from hname,
      HoistKind.head?_nameAt] at hhead
    cases hhead

/-- What a step that succeeds has made: what it mentions is noted behind what was mentioned before, declarations are
only added, and its result is as `shape` says of every later table of declarations. -/
structure Made (imports : List String) (before : Trace) (e : Emission) (more : Trace) (shape : HoistTable → Prop)
    (e' : Emission) : Prop where
  noted : Noted imports (before ++ more) e'
  grows : e.hoists.Grows e'.hoists
  shape : ∀ table, e'.hoists.Grows table → shape table

theorem Made.nothing {imports : List String} {t : Trace} {e : Emission} {shape : HoistTable → Prop}
    (h : Noted imports t e) (hshape : ∀ table, shape table) : Made imports t e {} shape e :=
  ⟨by rwa [Trace.append_empty], .refl _, fun table _ => hshape table⟩

namespace Emitting

variable {α β : Type} {imports : List String} {t : Trace} {e : Emission}

/-- Wherever the step succeeds from `e`, what it ends in is as `post` says. -/
def Ends (m : Emitting α) (e : Emission) (post : α → Emission → Prop) : Prop :=
  ∀ a e', m.run e = .ok (a, e') → post a e'

theorem Ends.pure {a : α} {post : α → Emission → Prop} (h : post a e) : Ends (pure a) e post := by
  intro b e' hrun
  cases hrun
  exact h

theorem Ends.bind {m : Emitting α} {mid : α → Emission → Prop} {k : α → Emitting β} {post : β → Emission → Prop}
    (hm : Ends m e mid) (hk : ∀ a e₁, mid a e₁ → Ends (k a) e₁ post) : Ends (m >>= k) e post := by
  intro b e' hrun
  rw [StateT.run_bind] at hrun
  cases hfirst : m.run e with
  | error error =>
    rw [hfirst] at hrun
    cases hrun
  | ok result =>
    rw [hfirst] at hrun
    exact hk result.1 result.2 (hm _ _ hfirst) b e' hrun

theorem Ends.weaken {m : Emitting α} {mid post : α → Emission → Prop} (hm : Ends m e mid)
    (h : ∀ a e', mid a e' → post a e') : Ends m e post :=
  fun a e' hrun => h a e' (hm a e' hrun)

theorem Ends.lift {x : Except InternalError α} {post : α → Emission → Prop} (h : ∀ a, x = .ok a → post a e) :
    Ends (liftM x) e post := by
  intro a e' hrun
  cases x with
  | error error => cases hrun
  | ok b =>
    cases hrun
    exact h a rfl

theorem ends_use (h : Noted imports t e) (helper : Helper) :
    Ends (use helper) e fun _ e' => Made imports t e { helpers := [helper] } (fun _ => True) e' := by
  intro _ e' hrun
  cases hrun
  exact ⟨h.addHelper helper, by simp [HoistTable.Grows.refl], fun _ _ => trivial⟩

/-- A call with arguments that mention nothing. -/
theorem ends_call (h : Noted imports t e) (helper : Helper) (arguments : List Value)
    (harity : arguments.length = helper.arity) (hplain : Value.traceOf arguments = {}) :
    Ends (call helper arguments harity) e fun v e' =>
      Made imports t e v.trace (fun _ => v = .call helper.localName arguments) e' := by
  refine .bind (ends_use h helper) fun _ e₁ h₁ => .pure ⟨?_, h₁.grows, fun _ _ => rfl⟩
  rw [Value.trace_call, hplain, Trace.append_empty]
  exact h₁.noted

/-- A call of a helper that has been mentioned before changes nothing. -/
theorem ends_call_again (h : Noted imports t e) {helper : Helper} (hm : helper ∈ t.helpers) (arguments : List Value)
    (harity : arguments.length = helper.arity) :
    Ends (call helper arguments harity) e fun v e' => v = .call helper.localName arguments ∧ e' = e := by
  intro v e' hrun
  cases hrun
  exact ⟨rfl, h.addHelper_again hm⟩

theorem ends_hoist (h : Noted imports t e) {kind : HoistKind} {content : String} (hcontent : kind.Holds content) :
    Ends (hoist kind content) e fun name e' =>
      Made imports t e { names := [name] } (fun table => table.Declares kind content name) e' := by
  intro name e' hrun
  cases hrun
  refine ⟨h.hoist hcontent, e.hoists.grows_insert kind content, fun table hgrows => ?_⟩
  exact hgrows.subset (e.hoists.mem_insert kind content)

theorem ends_hoistLiteral (h : Noted imports t e) {value : Value} (hliteral : value.isLiteral = true) :
    Ends (hoistLiteral value) e fun v e' =>
      Made imports t e v.trace (fun table => ∃ name, table.Declares .object value.text name ∧ v = .constant name) e' := by
  have hcontent : HoistKind.object.Holds value.text := ⟨value, hliteral, rfl⟩
  refine .bind (ends_hoist h hcontent) fun name e₁ h₁ => .pure ?_
  exact ⟨h₁.noted, h₁.grows, fun table hgrows => ⟨name, h₁.shape table hgrows, rfl⟩⟩

theorem ends_memoize (h : Noted imports t e) (value : Value) :
    Ends (memoize value) e fun v e' => ∃ n,
      Made imports t e { memos := [memoName n] } (fun _ => v = .memo (memoName n) value) e' := by
  intro v e' hrun
  cases hrun
  exact ⟨e.memos, h.memoize, .refl _, fun _ _ => rfl⟩

/-- Steps for the members of a list, one after the other. -/
theorem ends_mapM {f : α → Emitting β} {trace : β → Trace} {shape : HoistTable → α → β → Prop} (xs : List α)
    (hf : ∀ x ∈ xs, ∀ {t e}, Noted imports t e →
      Ends (f x) e fun y e' => Made imports t e (trace y) (fun table => shape table x y) e')
    (h : Noted imports t e) :
    Ends (xs.mapM f) e fun ys e' =>
      Made imports t e (.concat (ys.map trace)) (fun table => List.Forall₂ (shape table) xs ys) e' := by
  induction xs generalizing t e with
  | nil =>
    rw [List.mapM_nil]
    exact .pure (.nothing h fun _ => .nil)
  | cons x xs ih =>
    rw [List.mapM_cons]
    refine .bind (hf x (by simp) h) fun y e₁ h₁ => ?_
    refine .bind (ih (fun x hx => hf x (by simp [hx])) h₁.noted) fun ys e₂ h₂ => .pure ⟨?_, ?_, ?_⟩
    · simpa [Trace.append_assoc] using h₂.noted
    · exact h₁.grows.trans h₂.grows
    · exact fun table hgrows => .cons (h₁.shape table (h₂.grows.trans hgrows)) (h₂.shape table hgrows)

end Emitting

end TemplateCompiler.Render
